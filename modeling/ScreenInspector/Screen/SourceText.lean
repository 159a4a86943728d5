/-
  ScreenInspector/Screen/SourceText.lean
  ======================================
  **The source text of a tree**: a markup document with one element per element of the screen.

  The document has a root element of its own, `views`, and below it an element for every node of
  the tree, nested in the same way.  Its name is the tag of the node, and it has six attributes,
  of which those that the node lacks are empty.  A node without children closes itself.

  The text is written with a list of the pieces still to write, so that a node's closing tag waits
  behind its children.
-/
import ScreenInspector.Screen.Node
import ScreenInspector.Markup.Chars

namespace ScreenInspector

/-- The name of the root element. -/
def wrapperTag : String := "views"

/-- The attributes of every element of a source text, in order. -/
def sourceAttributes : List String :=
  ["name", "label", "value", "ref", "id", "shown"]

/-- The value of an attribute in the source text. -/
def Element.sourceValue (e : Element) (name : String) : String :=
  if name = "ref" then e.reference else (e.attribute? name).getD ""

/-- A blank, the name, and the value between quotes. -/
def attributeText (name value : List Char) : List Char :=
  ' ' :: (name ++ '=' :: '\x22' :: (Markup.escaped value ++ ['\x22']))

/-- The attributes of an element as they stand in its tag. -/
def Element.attributesText (e : Element) : List Char :=
  sourceAttributes.flatMap fun name =>
    attributeText name.toList (e.sourceValue name).toList

/-- What is still to be written: a tree, or the end of an element. -/
inductive SourcePiece where
  | tree (n : Node)
  | finish (tag : List Char)

/-- The length of the work that a piece stands for. -/
def SourcePiece.weight : SourcePiece → Nat
  | .tree n => 2 * n.size
  | .finish _ => 1

def SourcePiece.weightAll : List SourcePiece → Nat
  | [] => 0
  | p :: rest => p.weight + weightAll rest

theorem SourcePiece.weightAll_append (a b : List SourcePiece) :
    weightAll (a ++ b) = weightAll a + weightAll b := by
  induction a with
  | nil => simp [weightAll]
  | cons p rest ih => simp only [List.cons_append, weightAll, ih]; omega

theorem SourcePiece.weightAll_map_tree (ns : List Node) :
    weightAll (ns.map SourcePiece.tree) = 2 * Node.sizeAll ns := by
  induction ns with
  | nil => rfl
  | cons n rest ih => simp only [List.map, weightAll, weight, Node.sizeAll, ih]; omega

/-- The text of pieces, one after the other. -/
def SourcePiece.write : List SourcePiece → List Char
  | [] => []
  | .finish tag :: rest => '<' :: '/' :: (tag ++ '>' :: write rest)
  | .tree n :: rest =>
    let tag := tagChars n.element.kind.toList
    '<' :: (tag ++ (n.element.attributesText ++
      (if n.children.isEmpty then '/' :: '>' :: write rest
       else '>' :: write (n.children.map SourcePiece.tree ++ .finish tag :: rest))))
termination_by pieces => weightAll pieces
decreasing_by
  · simp only [weightAll, weight]; omega
  · simp only [weightAll, weight]; have := n.size_pos; omega
  · simp only [weightAll, weight, weightAll_append, weightAll_map_tree, n.size_eq]; omega

/-- The declaration and the start of the root element. -/
def sourceOpening : List Char :=
  "<?xml version=\"1.0\" encoding=\"UTF-8\"?><views>".toList

/-- The end of the root element. -/
def sourceClosing : List Char :=
  "</views>".toList

/-- The source text of a tree. -/
def Node.sourceText (n : Node) : String :=
  String.ofList (sourceOpening ++ (SourcePiece.write [.tree n] ++ sourceClosing))

end ScreenInspector
