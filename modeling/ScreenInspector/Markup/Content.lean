/-
  ScreenInspector/Markup/Content.lean
  ===================================
  **From raw to meant characters**: references are replaced and line ends unified.

  A raw value is first cut into pieces, each a character and whether it was written as a
  reference.  In an attribute, a literal tab or line end becomes a space.  In a text, a literal
  carriage return with or without a line feed after it becomes one line feed, unless a reference
  follows it.  Characters written as references are taken as they are.
-/
import ScreenInspector.Markup.Chars
import ScreenInspector.Markup.Fault
import ScreenInspector.Text.CharClass

namespace ScreenInspector.Markup

/-- A character of a value, and whether a reference stands for it. -/
structure Piece where
  char : Char
  referenced : Bool
deriving DecidableEq, Repr

/-! ### References -/

/-- The number written by digits of a base up to sixteen. -/
def ofDigits? (base : Nat) : Nat → List Char → Option Nat
  | n, [] => some n
  | n, c :: rest =>
    let digit :=
      if c.isDigit then some (c.toNat - '0'.toNat)
      else if 'a' ≤ c ∧ c ≤ 'f' then some (c.toNat - 'a'.toNat + 10)
      else if 'A' ≤ c ∧ c ≤ 'F' then some (c.toNat - 'A'.toNat + 10)
      else none
    match digit with
    | some d => if d < base then ofDigits? base (n * base + d) rest else none
    | none => none

/-- The legal character of a code point of at most 32 bits; a number that is no code point stands
for U+FFFD. -/
def ofCodePoint? (n : Nat) : Option Char :=
  if Nat.pow 2 32 ≤ n then none
  else
    let c := if n.isValidChar then Char.ofNat n else '\ufffd'
    if isLegal c then some c else none

/-- The character of a reference, given what stands between its ampersand and its semicolon. -/
def dereference : List Char → Except Fault Char
  | '#' :: 'x' :: ds =>
    if ds.isEmpty then .error .badReference
    else
      match (ofDigits? 16 0 ds).bind ofCodePoint? with
      | some c => .ok c
      | none => .error .badReference
  | '#' :: ds =>
    if ds.isEmpty then .error .badReference
    else
      match (ofDigits? 10 0 ds).bind ofCodePoint? with
      | some c => .ok c
      | none => .error .badReference
  | name =>
    if name = ['a', 'm', 'p'] then .ok '&'
    else if name = ['l', 't'] then .ok '<'
    else if name = ['g', 't'] then .ok '>'
    else if name = ['q', 'u', 'o', 't'] then .ok '\x22'
    else if name = ['a', 'p', 'o', 's'] then .ok '\x27'
    else .error (.unknownEntity (String.ofList name))

/-- The pieces of a raw value.  `pending` holds the characters of a reference that has begun,
the last first. -/
def piecesFrom : Option (List Char) → List Char → Except Fault (List Piece)
  | none, [] => .ok []
  | some _, [] => .error .badReference
  | none, '&' :: rest => piecesFrom (some []) rest
  | none, c :: rest => do
    let more ← piecesFrom none rest
    pure (⟨c, false⟩ :: more)
  | some pending, ';' :: rest => do
    let c ← dereference pending.reverse
    let more ← piecesFrom none rest
    pure (⟨c, true⟩ :: more)
  | some pending, c :: rest => piecesFrom (some (c :: pending)) rest

/-- The pieces of a raw value. -/
def pieces (raw : List Char) : Except Fault (List Piece) :=
  piecesFrom none raw

/-! ### Line ends -/

/-- The characters of an attribute value. -/
def attributeChars : List Piece → List Char
  | [] => []
  | p :: rest =>
    if p.referenced then p.char :: attributeChars rest
    else if p.char = '\r' ∧ rest.head? = some ⟨'\n', false⟩ then attributeChars rest
    else if p.char = '\r' ∨ p.char = '\n' ∨ p.char = '\t' then ' ' :: attributeChars rest
    else p.char :: attributeChars rest

/-- The characters of a text.  A literal carriage return is a line end before a literal character
and at the end of the text, and a literal line feed after it belongs to it.  At the end it stays as
it is if it comes right after a reference, which is what `afterReference` says. -/
def textCharsFrom : (afterReference : Bool) → List Piece → List Char
  | _, [] => []
  | afterReference, [p] =>
    if p.char = '\r' ∧ !p.referenced ∧ !afterReference then ['\n'] else [p.char]
  | _, p :: q :: rest =>
    if p.char = '\r' ∧ !p.referenced ∧ !q.referenced then
      if q.char = '\n' then '\n' :: textCharsFrom false rest
      else '\n' :: textCharsFrom false (q :: rest)
    else p.char :: textCharsFrom p.referenced (q :: rest)

/-- The characters of a text. -/
def textChars (ps : List Piece) : List Char :=
  textCharsFrom false ps

/-- The value of an attribute. -/
def attributeValue (raw : List Char) : Except Fault (List Char) :=
  (pieces raw).map attributeChars

/-- The characters of a text token. -/
def textContent (raw : List Char) : Except Fault (List Char) :=
  (pieces raw).map textChars

/-- The characters of a character section, in which nothing is a reference. -/
def sectionContent (raw : List Char) : List Char :=
  textChars (raw.map fun c => ⟨c, false⟩)

end ScreenInspector.Markup
