/-
  ScreenInspector/Screen/Tree.lean
  ================================
  **The tree of a snapshot**: its nodes, its source text and an index by reference.

  The index has the path of every node under its reference; a reference that comes twice makes the
  tree malformed.  The source text is the one that came with the payload, if it is well-formed, and
  otherwise written from the nodes.  The web view is the first node of a given kind.
-/
import ScreenInspector.Screen.Payload
import ScreenInspector.Screen.SourceText
import ScreenInspector.Markup.Document
import ScreenInspector.Text.CharClass

namespace ScreenInspector

/-- Paths of nodes by reference, in depth-first order. -/
abbrev PathIndex := List (String × List Nat)

/-- Adds nodes to an index, whose last entry comes first; stops at the first reference that is
already there. -/
def PathIndex.extend : PathIndex → List (List Nat × Node) → Except Malformation PathIndex
  | index, [] => .ok index
  | index, (path, n) :: rest =>
    if (index.lookup n.reference).isSome then .error (.repeatedReference n.reference)
    else PathIndex.extend ((n.reference, path) :: index) rest

/-- The tree of a snapshot. -/
structure Tree where
  root : Node
  source : String
  index : PathIndex
  webViewPath : Option (List Nat)
deriving Inhabited

namespace Tree

/-- The kind of web views unless told otherwise. -/
def webViewKind : String := "WebView"

/-- The tree of a root node, with the source text that came with it. -/
def assemble (root : Node) (served : Option String) (webViewKind : String) :
    Except Malformation Tree :=
  if root.element.rect.isNone then .error (.rootWithoutGeometry root.reference)
  else do
    let nodes := root.withPaths
    let index ← PathIndex.extend [] nodes
    let webView := (nodes.find? fun (_, n) => n.element.kind == webViewKind).map Prod.fst
    match served with
    | none => pure ⟨root, root.sourceText, index.reverse, webView⟩
    | some source =>
      match Markup.readNodes source with
      | .error fault => .error (.sourceText fault)
      | .ok _ => pure ⟨root, source, index.reverse, webView⟩

/-- The tree of a root node, with its source text written from the nodes. -/
def ofNode (root : Node) : Except Malformation Tree :=
  assemble root none webViewKind

/-- The source text in an inspector payload, unless it is blank. -/
def servedSource? (payload : Json) : Option String :=
  ((Json.path? ["metadata", "xml"] payload).bind Json.string?).filter fun s => !Text.isBlankText s

/-- The tree that a payload describes. -/
def ofPayload (payload : Json) (webViewKind : String) : Except Malformation Tree :=
  if !payload.isObject then .error .rootNotObject
  else do
    let root ← readNode (PayloadFormat.ofRoot payload) (Malformation.depthLimit + 1) payload
    assemble root (servedSource? payload) webViewKind

/-- Arrays and objects that may be nested in the text of a payload. -/
def textDepthLimit : Nat := 127

/-- The tree that the text of a payload describes. -/
def ofText (text : String) (webViewKind : String) : Except Malformation Tree :=
  match Json.read textDepthLimit text with
  | .error fault => .error (.notJson fault)
  | .ok payload => ofPayload payload webViewKind

/-! ### Looking into a tree -/

/-- The number of nodes. -/
def size (t : Tree) : Nat :=
  t.index.length

/-- All nodes in depth-first order. -/
def nodes (t : Tree) : List Node :=
  t.root.all

/-- The node with a reference. -/
def find? (t : Tree) (reference : String) : Option Node :=
  (t.index.lookup reference).bind fun path => t.root.at? path

/-- The first node of the kind of web views. -/
def webView? (t : Tree) : Option Node :=
  t.webViewPath.bind fun path => t.root.at? path

/-- The markup of the web view. -/
def webViewMarkup? (t : Tree) : Option String :=
  t.webView?.bind fun n => n.element.markup

/-- The tree view, a line per node. -/
def outline (t : Tree) : List Node.OutlineLine :=
  t.root.outline

end Tree

end ScreenInspector
