/-
  ScreenInspector/Text/CharClass.lean
  ===================================
  **Character classes** used by the readers of the library, and the few operations on
  texts that are defined by such a class.

  Core's predicates on `Char` know ASCII only.  The classes here follow the Unicode
  properties: the ASCII part is a rule, the rest is looked up in a table
  (`ScreenInspector.Text.CharTables`).
-/
import ScreenInspector.Text.CharTables

namespace ScreenInspector.Text

/-- A character with the property White_Space. -/
def isBlank (c : Char) : Bool :=
  let n := c.toNat
  (decide (9 ≤ n) && decide (n ≤ 13)) || n == 0x20 || n == 0x85 || n == 0xA0 || n == 0x1680 ||
    (decide (0x2000 ≤ n) && decide (n ≤ 0x200A)) || n == 0x2028 || n == 0x2029 ||
    n == 0x202F || n == 0x205F || n == 0x3000

/-- A character with the property Alphabetic. -/
def isLetter (c : Char) : Bool :=
  if c.toNat < 0x80 then c.isAlpha else inRanges letterRanges c.toNat

/-- A letter, or a character of one of the numeral categories. -/
def isLetterOrNumeral (c : Char) : Bool :=
  if c.toNat < 0x80 then c.isAlphanum
  else inRanges letterRanges c.toNat || inRanges numeralRanges c.toNat

/-- A character that quoted text shows as itself, escapes of quotes and backslashes apart:
neither a control nor a separator other than the space, and nothing that attaches to the
character before it. -/
def isShown (c : Char) : Bool :=
  if c.toNat < 0x80 then decide (0x20 ≤ c.toNat) && c.toNat != 0x7F
  else !inRanges hiddenRanges c.toNat && !inRanges extendingRanges c.toNat

/-! ### Texts -/

/-- The characters without the blank ones at both ends. -/
def trimChars (cs : List Char) : List Char :=
  ((cs.dropWhile isBlank).reverse.dropWhile isBlank).reverse

/-- The text without the blank characters at both ends. -/
def trim (s : String) : String :=
  String.ofList (trimChars s.toList)

/-- A text is blank when each of its characters is. -/
def isBlankText (s : String) : Bool :=
  s.toList.all isBlank

/-- The maximal runs of characters that are not blank, in order. -/
def words (cs : List Char) : List (List Char) :=
  (cs.splitBy fun a b => isBlank a == isBlank b).filter fun run =>
    match run with
    | [] => false
    | c :: _ => !isBlank c

/-- ASCII letters in lower case, every other character unchanged. -/
def lowerAscii (s : String) : String :=
  String.ofList (s.toList.map Char.toLower)

/-- The texts joined, with `separator` between neighbours. -/
def joined (separator : String) : List String → String
  | [] => ""
  | [s] => s
  | s :: rest => s ++ separator ++ joined separator rest

/-- Whether `part` stands somewhere in `whole`. -/
def hasInfix (part : List Char) : List Char → Bool
  | [] => part.isEmpty
  | c :: rest => part.isPrefixOf (c :: rest) || hasInfix part rest

end ScreenInspector.Text
