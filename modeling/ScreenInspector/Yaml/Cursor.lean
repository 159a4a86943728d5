/-
  ScreenInspector/Yaml/Cursor.lean
  ================================
  **Where a reader of YAML stands**: the characters that are left, and the place of the first of
  them.

  Indentation is meaning in YAML, so the column belongs to the position.  Before a text is read
  its line ends are made equal; of the characters that end a line, the separators of lines and
  paragraphs stay as they are.
-/
import ScreenInspector.Yaml.Fault

namespace ScreenInspector.Yaml

/-! ### Characters -/

/-- A character that may stand in a text. -/
def isAllowed (c : Char) : Bool :=
  let n := c.toNat
  n == 0x09 || n == 0x0A || n == 0x0D || (decide (0x20 ≤ n) && decide (n ≤ 0x7E)) || n == 0x85 ||
    (decide (0xA0 ≤ n) && decide (n ≤ 0xFFFD)) || decide (0x10000 ≤ n)

/-- A character that ends a line, once line ends are made equal. -/
def isBreak (c : Char) : Bool :=
  c == '\n' || c == '\u2028' || c == '\u2029'

def isBlank (c : Char) : Bool :=
  c == ' ' || c == '\t'

/-- What separates words. -/
def isGap (c : Char) : Bool :=
  isBlank c || isBreak c

/-- A character of the names of anchors, directives and tag handles. -/
def isWordChar (c : Char) : Bool :=
  c.isAlphanum || c == '_' || c == '-'

/-- Whether a text is at its end or goes on with a gap. -/
def beginsWithGap : List Char → Bool
  | [] => true
  | c :: _ => isGap c

/-- Carriage returns, alone or before a line feed, and next-line characters become line feeds. -/
def equalBreaks : List Char → List Char
  | [] => []
  | '\r' :: '\n' :: rest => '\n' :: equalBreaks rest
  | c :: rest => (if c = '\r' ∨ c = '\u0085' then '\n' else c) :: equalBreaks rest

/-- The characters of a text with equal line ends, if all of them are allowed. -/
def charsOf (text : String) : Except Fault (List Char) :=
  match text.toList.find? fun c => !isAllowed c with
  | some c => .error (.illegalChar c)
  | none => .ok (equalBreaks text.toList)

/-! ### Cursors -/

structure Cursor where
  rest : List Char
  /-- The number of bytes before, in UTF-8. -/
  index : Nat := 0
  line : Nat := 0
  column : Nat := 0
deriving Repr, Inhabited

namespace Cursor

/-- One character further. -/
def next (c : Cursor) : Cursor :=
  match c.rest with
  | [] => c
  | ch :: rest =>
    if isBreak ch then ⟨rest, c.index + ch.utf8Size, c.line + 1, 0⟩
    else ⟨rest, c.index + ch.utf8Size, c.line, c.column + 1⟩

/-- As many characters further as a text has. -/
def pass (c : Cursor) (taken : List Char) : Cursor :=
  taken.foldl (fun c _ => c.next) c

/-- As many characters further as are of a class. -/
def skip (c : Cursor) (p : Char → Bool) : Cursor :=
  c.pass (c.rest.takeWhile p)

/-- The first character. -/
def peek? (c : Cursor) : Option Char :=
  c.rest.head?

/-- Whether the first character is a given one. -/
def isAt (c : Cursor) (ch : Char) : Bool :=
  c.rest.head? == some ch

/-- Whether a line begins here with three given characters that stand alone. -/
def isAtMark (c : Cursor) (mark : Char) : Bool :=
  c.column == 0 && [mark, mark, mark].isPrefixOf c.rest && beginsWithGap (c.rest.drop 3)

/-- Whether a document begins or ends here. -/
def isAtDocumentMark (c : Cursor) : Bool :=
  c.isAtMark '-' || c.isAtMark '.'

/-- The fault of a text that should have gone on otherwise. -/
def unexpected (c : Cursor) : Fault :=
  match c.rest with
  | [] => .endOfText
  | ch :: _ => .unexpectedChar ch

end Cursor

end ScreenInspector.Yaml
