/-
  ScreenInspector/Markup/Document.lean
  ====================================
  **Documents with numbered nodes.**

  The nodes of a document are numbered in document order: number 0 is the document itself, an
  element comes before its children, and these come in their order.  An entry says what a node
  is, which node holds it and which is the last node inside it, so the nodes from `n` to
  `(entry n).last` are exactly `n` and everything inside it.

  `Document.ofNodes` numbers a list of nodes.  Attributes are no nodes; they belong to the entry
  of their element.
-/
import ScreenInspector.Markup.Tree

namespace ScreenInspector.Markup

/-- What a numbered node is. -/
inductive Label where
  | document
  | element (name : String) (attributes : List Attribute)
  | text (content : String)
  | comment
  | instruction
deriving DecidableEq, Repr, Inhabited

/-- A numbered node. -/
structure Entry where
  label : Label
  parent : Option Nat
  last : Nat
deriving DecidableEq, Repr, Inhabited

/-- A document: its entries by number. -/
structure Document where
  entries : Array Entry
deriving DecidableEq, Repr, Inhabited

/-! ### Numbering -/

mutual

/-- The number of nodes in a tree. -/
def Node.size : Node → Nat
  | .element _ _ children => 1 + Node.sizeAll children
  | .text _ => 1
  | .comment => 1
  | .instruction => 1

def Node.sizeAll : List Node → Nat
  | [] => 0
  | node :: rest => node.size + Node.sizeAll rest

end

mutual

/-- The entries of a tree whose first node gets the number `id`. -/
def Node.entries (parent id : Nat) : Node → List Entry
  | .element name attributes children =>
    ⟨.element name attributes, some parent, id + Node.sizeAll children⟩ ::
      Node.entriesAll id (id + 1) children
  | .text content => [⟨.text content, some parent, id⟩]
  | .comment => [⟨.comment, some parent, id⟩]
  | .instruction => [⟨.instruction, some parent, id⟩]

/-- The entries of trees that stand side by side, the first of which gets the number `id`. -/
def Node.entriesAll (parent id : Nat) : List Node → List Entry
  | [] => []
  | node :: rest =>
    Node.entries parent id node ++ Node.entriesAll parent (id + node.size) rest

end

/-- The numbered document of a list of nodes. -/
def Document.ofNodes (nodes : List Node) : Document :=
  ⟨(⟨.document, none, Node.sizeAll nodes⟩ :: Node.entriesAll 0 1 nodes).toArray⟩

/-- The document that a text writes. -/
def Document.read (text : String) : Except Fault Document :=
  (readNodes text).map Document.ofNodes

/-! ### Looking at a node -/

namespace Document

variable (d : Document)

def size : Nat := d.entries.size

/-- What a node is. -/
def label (n : Nat) : Label :=
  match d.entries[n]? with
  | some e => e.label
  | none => .comment

/-- The node that holds a node. -/
def parent? (n : Nat) : Option Nat :=
  d.entries[n]?.bind Entry.parent

/-- The last node inside a node. -/
def last (n : Nat) : Nat :=
  match d.entries[n]? with
  | some e => e.last
  | none => n

def isElement (n : Nat) : Bool :=
  match d.label n with
  | .element .. => true
  | _ => false

/-- The name of an element. -/
def name? (n : Nat) : Option String :=
  match d.label n with
  | .element name _ => some name
  | _ => none

def attributes (n : Nat) : List Attribute :=
  match d.label n with
  | .element _ attributes => attributes
  | _ => []

/-- The value of the first attribute of a name, whatever its qualifier. -/
def attribute? (n : Nat) (name : String) : Option String :=
  ((d.attributes n).find? fun a => a.name == name).map Attribute.value

/-- The numbers from `first` to `last`, both included. -/
def numbers (first last : Nat) : List Nat :=
  List.range' first (last + 1 - first)

/-- The texts inside a node, joined. -/
def textOf (n : Nat) : String :=
  (numbers n (d.last n)).foldl
    (fun all m =>
      match d.label m with
      | .text content => all ++ content
      | _ => all) ""

end Document

end ScreenInspector.Markup
