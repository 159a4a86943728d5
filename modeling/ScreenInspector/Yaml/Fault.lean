/-
  ScreenInspector/Yaml/Fault.lean
  ===============================
  **Why a text is no YAML document**, or not one of the form that its reader wants.
-/

namespace ScreenInspector.Yaml

inductive Fault where
  | illegalChar (c : Char)
  | unexpectedChar (c : Char)
  | endOfText
  | badIndentation
  | tabIndentation
  /-- A key that may not stand here, or one without a colon. -/
  | misplacedKey
  | misplacedEntry
  | badDirective
  | badAnchor
  | badTag
  | badEscape
  | badBlockHeader
  | documentMarkInScalar
  | unexpectedToken
  | unknownAnchor (name : String)
  | manyDocuments
  | tooDeep
  /-- A value that is not of the kind that a field wants. -/
  | wrongKind (wanted : String)
  | repeatedField (name : String)
deriving DecidableEq, Repr

def Fault.message : Fault → String
  | .illegalChar c => "control character U+" ++ String.ofList (Nat.toDigits 16 c.toNat)
  | .unexpectedChar c => "unexpected character " ++ String.ofList [c]
  | .endOfText => "the text ends inside a value"
  | .badIndentation => "wrong indentation"
  | .tabIndentation => "a tab where a token should begin"
  | .misplacedKey => "a key is not allowed here"
  | .misplacedEntry => "an entry is not allowed here"
  | .badDirective => "bad directive"
  | .badAnchor => "bad anchor or alias"
  | .badTag => "bad tag"
  | .badEscape => "bad escape in a quoted scalar"
  | .badBlockHeader => "bad header of a block scalar"
  | .documentMarkInScalar => "a document mark inside a quoted scalar"
  | .unexpectedToken => "a value was expected"
  | .unknownAnchor name => "unknown anchor " ++ name
  | .manyDocuments => "more than one document"
  | .tooDeep => "values nested too deep"
  | .wrongKind wanted => "expected " ++ wanted
  | .repeatedField name => "the field " ++ name ++ " comes twice"

end ScreenInspector.Yaml
