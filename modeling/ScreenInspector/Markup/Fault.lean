/-
  ScreenInspector/Markup/Fault.lean
  =================================
  **Why a text is no well-formed document.**
-/

namespace ScreenInspector.Markup

inductive Fault where
  | endOfText
  | unexpected (c : Char)
  | illegal (c : Char)
  | badName
  | missingSpace
  | misplacedDeclaration
  | badComment
  | sectionEndInText
  | badReference
  | unknownEntity (name : String)
  | reservedNamespace
  | repeatedDeclaration (qualifier : String)
  | undeclared (qualifier : String)
  | repeatedAttribute (name : String)
  | wrongEndTag (name : String)
  | contentOutsideRoot
  | unclosed (name : String)
  | noRoot
deriving DecidableEq, Repr

def Fault.message : Fault → String
  | .endOfText => "unexpected end of the document"
  | .unexpected c => "unexpected character " ++ String.ofList [c]
  | .illegal _ => "a character that no document may hold"
  | .badName => "invalid name"
  | .missingSpace => "expected a space between attributes"
  | .misplacedDeclaration => "the declaration does not stand at the beginning"
  | .badComment => "a comment holds two hyphens or ends in one"
  | .sectionEndInText => "the end of a character section stands in a text"
  | .badReference => "malformed reference"
  | .unknownEntity name => "unknown entity " ++ name
  | .reservedNamespace => "a reserved namespace is declared"
  | .repeatedDeclaration qualifier => "namespace " ++ qualifier ++ " is declared twice"
  | .undeclared qualifier => "namespace " ++ qualifier ++ " is not declared"
  | .repeatedAttribute name => "attribute " ++ name ++ " is given twice"
  | .wrongEndTag name => "end tag of " ++ name ++ " closes another element"
  | .contentOutsideRoot => "content outside the root element"
  | .unclosed name => "element " ++ name ++ " is not closed"
  | .noRoot => "the document has no root element"

end ScreenInspector.Markup
