/-
  ScreenInspector/Expression/Lexer.lean
  =====================================
  **Cutting an expression into tokens.**

  Blank characters separate tokens and mean nothing else.  A name begins with a letter or an
  underscore and goes on with letters, numerals, underscores, hyphens and points; a number is a run
  of digits and points; a literal goes up to the next quote of its own kind.  Faults name the
  position of a character, counted from zero.
-/
import ScreenInspector.Expression.Fault

namespace ScreenInspector.Expression

/-- A character that a name may begin with. -/
def isNameStart (c : Char) : Bool :=
  Text.isLetter c || c == '_'

/-- A character that a name may hold. -/
def isNameChar (c : Char) : Bool :=
  Text.isLetterOrNumeral c || c == '_' || c == '-' || c == '.'

/-- A digit or a point. -/
def isNumberChar (c : Char) : Bool :=
  c.isDigit || c == '.'

/-- A number, and the characters after it. -/
def lexNumber (cs : List Char) : Except Fault (Token × List Char) :=
  let text := cs.takeWhile isNumberChar
  match Number.magnitude? text with
  | some value => .ok (.number value, cs.dropWhile isNumberChar)
  | none => .error (.badNumber (String.ofList text))

/-- A literal after its opening quote. -/
def lexLiteral (quote : Char) (position : Nat) (cs : List Char) :
    Except Fault (Token × List Char) :=
  match cs.dropWhile (· != quote) with
  | [] => .error (.openLiteral position)
  | _ :: rest => .ok (.literal (String.ofList (cs.takeWhile (· != quote))), rest)

/-- The token that begins with a character of no fixed meaning. -/
def lexWord (position : Nat) (c : Char) (rest : List Char) : Except Fault (Token × List Char) :=
  if c = '\x22' ∨ c = '\x27' then lexLiteral c position rest
  else if c.isDigit then lexNumber (c :: rest)
  else if isNameStart c then
    .ok (.name (String.ofList (c :: rest.takeWhile isNameChar)), rest.dropWhile isNameChar)
  else .error (.unexpectedChar c position)

/-- The first token of a text that begins with a character that is not blank. -/
def Token.next (position : Nat) : List Char → Except Fault (Token × List Char)
  | [] => .error .endOfExpression
  | '/' :: '/' :: rest => .ok (.doubleSlash, rest)
  | '/' :: rest => .ok (.slash, rest)
  | '(' :: rest => .ok (.openParen, rest)
  | ')' :: rest => .ok (.closeParen, rest)
  | '[' :: rest => .ok (.openBracket, rest)
  | ']' :: rest => .ok (.closeBracket, rest)
  | '@' :: rest => .ok (.at, rest)
  | ',' :: rest => .ok (.comma, rest)
  | '|' :: rest => .ok (.pipe, rest)
  | '*' :: rest => .ok (.star, rest)
  | '+' :: rest => .ok (.plus, rest)
  | '-' :: rest => .ok (.minus, rest)
  | '=' :: rest => .ok (.equal, rest)
  | '!' :: '=' :: rest => .ok (.notEqual, rest)
  | '<' :: '=' :: rest => .ok (.lessEqual, rest)
  | '<' :: rest => .ok (.less, rest)
  | '>' :: '=' :: rest => .ok (.greaterEqual, rest)
  | '>' :: rest => .ok (.greater, rest)
  | ':' :: ':' :: rest => .ok (.doubleColon, rest)
  | ':' :: _ => .error (.qualifiedName position)
  | '.' :: '.' :: rest => .ok (.doubleDot, rest)
  | '.' :: c :: rest =>
    if c.isDigit then lexNumber ('.' :: c :: rest) else .ok (.dot, c :: rest)
  | ['.'] => .ok (.dot, [])
  | c :: rest => lexWord position c rest

/-- The tokens of what is left of a text from a position on; `fuel` is the number of characters
left. -/
def Token.scanFrom : Nat → Nat → List Char → Except Fault (List Token)
  | _, _, [] => .ok []
  | 0, _, _ => .ok []
  | fuel + 1, position, c :: rest =>
    if Text.isBlank c then Token.scanFrom fuel (position + 1) rest
    else do
      let (token, after) ← Token.next position (c :: rest)
      let tokens ← Token.scanFrom fuel (position + (rest.length + 1 - after.length)) after
      pure (token :: tokens)

/-- The tokens of an expression. -/
def Token.scan (text : String) : Except Fault (List Token) :=
  Token.scanFrom text.toList.length 0 text.toList

end ScreenInspector.Expression
