/-
  ScreenInspector/Screen/HitTest.lean
  ===================================
  **Which element lies under a point.**

  Devices report boxes that do not lie inside those of the elements around them, so not the depth
  decides but the area: of the boxes that contain the point the smallest is meant, and of equally
  small ones the first in depth-first order.  Outside the box of the root there is nothing.
-/
import ScreenInspector.Screen.Tree

namespace ScreenInspector

/-- Whether a node has a box that contains a point. -/
def Node.covers (p : Point) (n : Node) : Bool :=
  match n.element.rect with
  | some r => r.contains p
  | none => false

/-- The area of the box of a node, 0 without a box. -/
def Node.area (n : Node) : Float :=
  match n.element.rect with
  | some r => r.area
  | none => 0.0

namespace Tree

/-- The nodes whose box contains a point, in depth-first order. -/
def candidates (t : Tree) (p : Point) : List Node :=
  t.nodes.filter (Node.covers p)

/-- The better of the best node so far and the next one: the next one only if it is smaller. -/
def smaller (best : Option Node) (n : Node) : Option Node :=
  match best with
  | none => some n
  | some b => if n.area < b.area then some n else some b

/-- The node under a point. -/
def nodeAt? (t : Tree) (p : Point) : Option Node :=
  if t.root.covers p then (t.candidates p).foldl smaller none else none

end Tree

end ScreenInspector
