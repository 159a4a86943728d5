/-
  ScreenInspector/Expression/Axis.lean
  ====================================
  **The axes of a node**: the nodes in one direction from it, the nearest first.

  Node numbers run in document order, so what lies inside a node are the numbers up to its last one,
  what follows it are those after that, and what precedes it are the smaller numbers that are not
  those of the nodes around it.
-/
import ScreenInspector.Expression.Expr
import ScreenInspector.Markup.Document

namespace ScreenInspector.Markup.Document

variable (d : Document)

/-- The nodes around a node, the innermost first.  Every node comes after the node that holds it;
`fuel` bounds the nesting. -/
def ancestorsFrom : Nat → Nat → List Nat
  | 0, _ => []
  | fuel + 1, n =>
    match d.parent? n with
    | some p => p :: ancestorsFrom fuel p
    | none => []

/-- The nodes around a node, the innermost first. -/
def ancestors (n : Nat) : List Nat :=
  d.ancestorsFrom d.size n

/-- The nodes inside a node. -/
def descendants (n : Nat) : List Nat :=
  numbers (n + 1) (d.last n)

/-- The nodes directly inside a node. -/
def children (n : Nat) : List Nat :=
  (d.descendants n).filter fun m => d.parent? m == some n

/-- The nodes directly inside the node that holds a node, itself included. -/
def siblings (n : Nat) : List Nat :=
  match d.parent? n with
  | some p => d.children p
  | none => [n]

/-- The nodes that begin after the end of a node. -/
def following (n : Nat) : List Nat :=
  (List.range d.size).filter fun m => decide (d.last n < m)

/-- The nodes that end before the beginning of a node, the nearest first. -/
def preceding (n : Nat) : List Nat :=
  let around := d.ancestors n
  ((List.range n).filter fun m => !around.contains m).reverse

end ScreenInspector.Markup.Document

namespace ScreenInspector.Expression

open ScreenInspector.Markup (Document)

/-- The nodes on an axis from a node, the nearest first.  Attributes are no nodes. -/
def Axis.nodes (d : Document) (n : Nat) : Axis → List Nat
  | .child => d.children n
  | .descendant => d.descendants n
  | .descendantOrSelf => n :: d.descendants n
  | .self => [n]
  | .parent => (d.parent? n).toList
  | .ancestor => d.ancestors n
  | .ancestorOrSelf => n :: d.ancestors n
  | .followingSibling => (d.siblings n).filter fun m => decide (n < m)
  | .precedingSibling => ((d.siblings n).filter fun m => decide (m < n)).reverse
  | .following => d.following n
  | .preceding => d.preceding n
  | .attribute => []

/-- Whether a node passes a test. -/
def NodeTest.admits (d : Document) (n : Nat) : NodeTest → Bool
  | .name wanted => d.name? n == some wanted
  | .anyElement => d.isElement n
  | .anyNode => true
  | .text =>
    match d.label n with
    | .text _ => true
    | _ => false

/-- Whether an attribute of a name passes a test. -/
def NodeTest.admitsAttribute (found : String) : NodeTest → Bool
  | .name wanted => wanted == found
  | .anyElement => true
  | .anyNode => true
  | .text => false

end ScreenInspector.Expression
