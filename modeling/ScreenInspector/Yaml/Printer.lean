/-
  ScreenInspector/Yaml/Printer.lean
  =================================
  **Writing texts as scalars.**

  A text of several lines becomes a literal block.  Any other text stands as it is, unless it would
  not be read as a text or begins or contains something that means more than itself; then it stands
  between single quotes.  What neither can hold is written between double quotes, with escapes.
-/
import ScreenInspector.Yaml.PlainValue
import ScreenInspector.Yaml.Cursor

namespace ScreenInspector.Yaml

/-- A character that is shown as itself: neither a control nor a byte order mark. -/
def isPrintable (c : Char) : Bool :=
  let n := c.toNat
  n == 0x0A || (decide (0x20 ≤ n) && decide (n ≤ 0x7E)) ||
    (decide (0xA0 ≤ n) && n != 0xFEFF && n != 0xFFFE && n != 0xFFFF)

/-- A line end of any kind, or a blank. -/
def isAnyGap (c : Char) : Bool :=
  isGap c || c == '\r' || c == '\u0085'

def isAnyBreak (c : Char) : Bool :=
  isBreak c || c == '\r' || c == '\u0085'

/-! ### Which form a text can have -/

/-- Characters that mean something at the beginning of a scalar. -/
def isOpeningMark (c : Char) : Bool :=
  "#,[]\x7b\x7d&*!|>\x27\x22%@\x60".toList.contains c

/-- Whether a text begins with something that is no plain text. -/
def hasOpeningMark (cs : List Char) : Bool :=
  "---".toList.isPrefixOf cs || "...".toList.isPrefixOf cs ||
    match cs with
    | [] => false
    | c :: rest =>
      let isAlone := match rest with
        | [] => true
        | d :: _ => isAnyGap d
      isOpeningMark c || ((c == '?' || c == ':' || c == '-') && isAlone)

/-- Whether a text contains something that would end a plain scalar: a colon before a gap, or a
number sign after one. -/
def hasInnerMark : List Char → Bool
  | a :: b :: rest =>
    let isAlone := match rest with
      | [] => true
      | d :: _ => isAnyGap d
    (b == ':' && isAlone) || (b == '#' && isAnyGap a) || hasInnerMark (b :: rest)
  | _ => false

/-- Whether a character of one class is followed by one of another. -/
def hasPair (p q : Char → Bool) : List Char → Bool
  | a :: b :: rest => (p a && q b) || hasPair p q (b :: rest)
  | _ => false

/-- What keeps a text out of every form but the last. -/
def needsEscapes (cs : List Char) : Bool :=
  cs.any (fun c => !isPrintable c) || hasPair (· == ' ') isAnyBreak cs

/-- Whether a text can stand as it is. -/
def canBePlain (cs : List Char) : Bool :=
  !needsEscapes cs && !hasOpeningMark cs && !hasInnerMark cs && !cs.any isAnyBreak &&
    !cs.head?.any (· == ' ') && !cs.getLast?.any (· == ' ')

/-- Whether a text can stand between single quotes. -/
def canBeSingleQuoted (cs : List Char) : Bool :=
  !needsEscapes cs && !hasPair isAnyBreak (· == ' ') cs

/-- Whether a text can be a literal block. -/
def canBeLiteral (cs : List Char) : Bool :=
  !needsEscapes cs && !cs.getLast?.any (· == ' ')

/-! ### Forms -/

/-- The characters of a text, where every line after a line end is indented. -/
def indentedLines (indent : Nat) (shown : Char → List Char) :
    (afterBreak : Bool) → List Char → List Char
  | _, [] => []
  | afterBreak, c :: rest =>
    if isAnyBreak c then c :: indentedLines indent shown true rest
    else
      (if afterBreak then List.replicate indent ' ' else []) ++ shown c ++
        indentedLines indent shown false rest

/-- A text between single quotes, of which one inside is written twice. -/
def singleQuoted (indent : Nat) (cs : List Char) : List Char :=
  let double := fun c : Char => if c = '\x27' then ['\x27', '\x27'] else [c]
  let margin := if cs.getLast?.any isAnyBreak then List.replicate indent ' ' else []
  '\x27' :: (indentedLines indent double false cs ++ margin ++ ['\x27'])

/-- `n` as digits of base sixteen, in upper case and at least `width` of them. -/
def hexDigits (width n : Nat) : List Char :=
  let digits := (Nat.toDigits 16 n).map Char.toUpper
  List.replicate (width - digits.length) '0' ++ digits

/-- How a character is written between double quotes. -/
def doubleQuotedChar (c : Char) : List Char :=
  match c with
  | '\x00' => ['\\', '0']
  | '\x07' => ['\\', 'a']
  | '\x08' => ['\\', 'b']
  | '\t' => ['\\', 't']
  | '\n' => ['\\', 'n']
  | '\x0b' => ['\\', 'v']
  | '\x0c' => ['\\', 'f']
  | '\r' => ['\\', 'r']
  | '\x1b' => ['\\', 'e']
  | '\x22' => ['\\', '\x22']
  | '\\' => ['\\', '\\']
  | '\u0085' => ['\\', 'N']
  | '\u2028' => ['\\', 'L']
  | '\u2029' => ['\\', 'P']
  | c =>
    let n := c.toNat
    if isPrintable c then [c]
    else if n ≤ 0xFF then '\\' :: 'x' :: hexDigits 2 n
    else if n ≤ 0xFFFF then '\\' :: 'u' :: hexDigits 4 n
    else '\\' :: 'U' :: hexDigits 8 n

def doubleQuoted (cs : List Char) : List Char :=
  '\x22' :: (cs.flatMap doubleQuotedChar ++ ['\x22'])

/-- The signs after the mark of a literal block: the indentation if the text does not show it, and
what becomes of the line ends after its last line. -/
def literalSigns (cs : List Char) : List Char :=
  let indentation := if cs.head?.any fun c => c == ' ' || isAnyBreak c then ['2'] else []
  let chomping :=
    match cs.reverse with
    | [] => ['-']
    | [c] => if isAnyBreak c then ['+'] else ['-']
    | c :: d :: _ => if !isAnyBreak c then ['-'] else if isAnyBreak d then ['+'] else []
  indentation ++ chomping

/-- A text as a block of its lines. -/
def literal (indent : Nat) (cs : List Char) : List Char :=
  '|' :: (literalSigns cs ++ '\n' :: indentedLines indent (fun c => [c]) true cs)

/-- A text as a scalar whose further lines are indented, and the end of its line. -/
def textLine (indent : Nat) (s : String) : String :=
  let cs := s.toList
  if cs.contains '\n' then
    if canBeLiteral cs then
      String.ofList (literal indent cs ++ if cs.getLast?.any isAnyBreak then [] else ['\n'])
    else String.ofList (doubleQuoted cs ++ ['\n'])
  else if !isNoText cs && canBePlain cs then String.ofList (cs ++ ['\n'])
  else if canBeSingleQuoted cs then String.ofList (singleQuoted indent cs ++ ['\n'])
  else String.ofList (doubleQuoted cs ++ ['\n'])

end ScreenInspector.Yaml
