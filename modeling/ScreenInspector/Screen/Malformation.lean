/-
  ScreenInspector/Screen/Malformation.lean
  ========================================
  **Why a snapshot cannot be turned into a tree**, or its source text into a document.
-/
import ScreenInspector.Json.Reader
import ScreenInspector.Markup.Fault

namespace ScreenInspector

inductive Malformation where
  /-- The payload is not JSON text. -/
  | notJson (fault : Json.Fault)
  | rootNotObject
  | tooDeep
  | nodeNotObject
  | noMetadata
  | noReference
  | noKind (reference : String)
  | childrenNotArray (reference : String)
  /-- A number of the box of an element is missing. -/
  | noRectField (reference field : String)
  /-- An element has neither a box nor elements inside it. -/
  | noGeometry (reference : String)
  | rootWithoutGeometry (reference : String)
  | repeatedReference (reference : String)
  /-- The source text is no document. -/
  | sourceText (fault : Markup.Fault)
  /-- As an evaluator from outside words it. -/
  | reported (text : String)
deriving DecidableEq, Repr

namespace Malformation

/-- Trees nested deeper than this are refused. -/
def depthLimit : Nat := 512

def text : Malformation → String
  | .notJson fault => "payload is not JSON: " ++ fault.message
  | .rootNotObject => "payload root is not an object"
  | .tooDeep => "tree nested deeper than " ++ toString depthLimit ++ " levels"
  | .nodeNotObject => "node is not an object"
  | .noMetadata => "node without metadata"
  | .noReference => "node without reference"
  | .noKind reference => "node " ++ reference ++ " without type"
  | .childrenNotArray reference => "children of " ++ reference ++ " is not an array"
  | .noRectField reference field =>
    "node " ++ reference ++ ": Malformed snapshot: rect field " ++ field ++ " missing"
  | .noGeometry reference => "node " ++ reference ++ " has no geometry"
  | .rootWithoutGeometry reference => "root node " ++ reference ++ " has no geometry"
  | .repeatedReference reference => "duplicate reference " ++ reference
  | .sourceText fault => "raw xml form: " ++ fault.message
  | .reported text => text

def message (m : Malformation) : String :=
  "Malformed snapshot: " ++ m.text

end Malformation

end ScreenInspector
