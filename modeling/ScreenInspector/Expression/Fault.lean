/-
  ScreenInspector/Expression/Fault.lean
  =====================================
  **Why an expression is invalid**: it cannot be cut into tokens, the tokens do not follow the
  grammar, or its parts do not fit one another when it is evaluated.
-/
import ScreenInspector.Expression.Expr
import ScreenInspector.Expression.Token

namespace ScreenInspector.Expression

inductive Fault where
  /-- A colon that is no axis mark. -/
  | qualifiedName (position : Nat)
  | openLiteral (position : Nat)
  | unexpectedChar (c : Char) (position : Nat)
  | badNumber (text : String)
  | empty
  /-- A token after a complete expression. -/
  | leftOver (token : Token)
  | expected (token : Token) (found : Option Token)
  | expectedTest (found : Option Token)
  | unknownTest (name : String)
  | unknownAxis (name : String)
  | attributeNotLast
  | attributeWithConditions
  | unknownFunction (name : String)
  | argumentCount (function : Function) (count : Nat)
  | unexpected (token : Token)
  | endOfExpression
  | tooDeep
  | selectsNoElements
  | unionOfOthers
  | filterOfOthers
  | countOfOthers
  | nameOfOthers
  /-- As an evaluator from outside words it. -/
  | reported (text : String)

/-- Parentheses, predicates and arguments nested deeper than this are refused. -/
def depthLimit : Nat := 32

namespace Fault

/-- What stands where another token was expected. -/
def found : Option Token → String
  | some token => token.shown
  | none => "end of expression"

/-- How many arguments a function takes, in words. -/
def countWanted (f : Function) : String :=
  match f.arity with
  | (least, none) => "at least " ++ toString least
  | (least, some most) =>
    if least = most then toString least else toString least ++ " to " ++ toString most

def message : Fault → String
  | .qualifiedName position =>
    "namespace prefixes are not supported (at " ++ toString position ++ ")"
  | .openLiteral position => "unterminated string literal at " ++ toString position
  | .unexpectedChar c position =>
    "unexpected character '" ++ String.ofList [c] ++ "' at " ++ toString position
  | .badNumber text => "invalid number " ++ text
  | .empty => "empty expression"
  | .leftOver token => "unexpected " ++ token.shown ++ " after expression"
  | .expected token other => "expected " ++ token.shown ++ ", found " ++ found other
  | .expectedTest other => "expected a node test, found " ++ found other
  | .unknownTest name => "unsupported node test " ++ name ++ "()"
  | .unknownAxis name => "unsupported axis " ++ name ++ "::"
  | .attributeNotLast => "attribute steps must come last in a path"
  | .attributeWithConditions => "attribute steps take a name or * and no predicates"
  | .unknownFunction name => "unsupported function " ++ name ++ "()"
  | .argumentCount f count =>
    f.word ++ "() expects " ++ countWanted f ++ " arguments, got " ++ toString count
  | .unexpected token => "unexpected " ++ token.shown
  | .endOfExpression => "unexpected end of expression"
  | .tooDeep => "expression nested deeper than " ++ toString depthLimit ++ " levels"
  | .selectsNoElements => "expression does not select elements"
  | .unionOfOthers => "operands of '|' must select nodes"
  | .filterOfOthers => "predicates and steps apply only to node-sets"
  | .countOfOthers => "count() expects a node-set"
  | .nameOfOthers => "name() expects a node-set"
  | .reported text => text

end Fault

end ScreenInspector.Expression
