/-
  ScreenInspector/Screen/Node.lean
  ================================
  **Trees of elements** and how they are walked.

  `walk` goes through trees in depth-first order, each element before those inside it, with a
  list of the trees still to visit; every tree carries a label from which `next` makes the labels
  of the trees inside it.  The measure of a walk is the number of elements still to visit.  Which
  elements a screen has, how deep they lie and on which paths they are found are walks with
  different labels.
-/
import ScreenInspector.Screen.Element

namespace ScreenInspector

/-- An element with the elements inside it. -/
inductive Node where
  | node (element : Element) (children : List Node)
deriving Inhabited

namespace Node

def element : Node → Element
  | .node e _ => e

def children : Node → List Node
  | .node _ cs => cs

def reference (n : Node) : String := n.element.reference

mutual

/-- The number of elements in a tree. -/
def size : Node → Nat
  | .node _ children => 1 + sizeAll children

def sizeAll : List Node → Nat
  | [] => 0
  | n :: rest => n.size + sizeAll rest

end

theorem size_pos (n : Node) : 0 < n.size := by
  cases n with
  | node e cs => simp only [size]; omega

theorem size_eq (n : Node) : n.size = 1 + sizeAll n.children := by
  cases n with
  | node e cs => simp only [size, children]

/-! ### Walks -/

/-- Trees still to visit, each with its label. -/
abbrev Agenda (α : Type) := List (α × Node)

/-- The number of elements still to visit. -/
def Agenda.size {α : Type} : Agenda α → Nat
  | [] => 0
  | (_, n) :: rest => n.size + Agenda.size rest

/-- The trees inside a tree, the `i`-th with the label `next a i`. -/
def labelled {α : Type} (next : α → Nat → α) (a : α) : Nat → List Node → Agenda α
  | _, [] => []
  | i, n :: rest => (next a i, n) :: labelled next a (i + 1) rest

theorem Agenda.size_append {α : Type} (a b : Agenda α) :
    Agenda.size (a ++ b) = Agenda.size a + Agenda.size b := by
  induction a with
  | nil => simp [Agenda.size]
  | cons head tail ih => simp only [List.cons_append, Agenda.size, ih]; omega

theorem size_labelled {α : Type} (next : α → Nat → α) (a : α) (i : Nat) (ns : List Node) :
    Agenda.size (labelled next a i ns) = sizeAll ns := by
  induction ns generalizing i with
  | nil => rfl
  | cons n rest ih => simp only [labelled, Agenda.size, sizeAll, ih]

/-- The trees of an agenda and all trees inside them, in depth-first order. -/
def walk {α : Type} (next : α → Nat → α) : Agenda α → Agenda α
  | [] => []
  | (a, n) :: rest => (a, n) :: walk next (labelled next a 0 n.children ++ rest)
termination_by agenda => Agenda.size agenda
decreasing_by
  simp only [Agenda.size, Agenda.size_append, size_labelled, size_eq n]
  omega

/-- All trees in a tree, itself included, in depth-first order. -/
def all (n : Node) : List Node :=
  (walk (fun _ _ => ()) [((), n)]).map Prod.snd

/-- All trees in a tree with the number of trees around them. -/
def withDepths (n : Node) : List (Nat × Node) :=
  walk (fun depth _ => depth + 1) [(0, n)]

/-- The positions to descend from a tree to one inside it, the last first. -/
abbrev ReversedPath := List Nat

/-- All trees in a tree with their paths from it: the position among the children, then the
position among the children of that child, and so on. -/
def withPaths (n : Node) : List (List Nat × Node) :=
  (walk (fun (path : ReversedPath) i => i :: path) [([], n)]).map fun (path, m) => (path.reverse, m)

/-- The tree at the end of a path. -/
def at? : List Nat → Node → Option Node
  | [], n => some n
  | i :: rest, n => n.children[i]?.bind (at? rest)

/-! ### Outlines -/

/-- A line of a tree view. -/
structure OutlineLine where
  depth : Nat
  reference : String
  title : String
deriving DecidableEq, Repr, Inhabited

/-- One line per element, in depth-first order. -/
def outline (n : Node) : List OutlineLine :=
  n.withDepths.map fun (depth, m) => ⟨depth, m.reference, m.element.title⟩

end Node

end ScreenInspector
