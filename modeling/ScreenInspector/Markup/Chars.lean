/-
  ScreenInspector/Markup/Chars.lean
  =================================
  **Characters of XML**: which may stand in a document at all, which separate, and which make
  up names; and how a value is written between the quotes of an attribute.
-/

namespace ScreenInspector.Markup

/-- A character that may stand in a document: no control other than tab, line feed and carriage
return, and neither U+FFFE nor U+FFFF. -/
def isLegal (c : Char) : Bool :=
  if c.toNat < 0x20 then c == '\t' || c == '\n' || c == '\r'
  else c.toNat != 0xFFFE && c.toNat != 0xFFFF

/-- The characters that separate. -/
def isSpace (c : Char) : Bool :=
  c == ' ' || c == '\t' || c == '\n' || c == '\r'

/-- Whether `code` lies between `low` and `high`, both included. -/
def within (low high code : Nat) : Bool :=
  decide (low ≤ code) && decide (code ≤ high)

/-- A character that may begin a name; the colon separates the parts of a name and is none. -/
def isNameStart (c : Char) : Bool :=
  let n := c.toNat
  if n < 0x80 then c.isAlpha || c == '_'
  else
    within 0xC0 0xD6 n || within 0xD8 0xF6 n || within 0xF8 0x2FF n || within 0x370 0x37D n ||
    within 0x37F 0x1FFF n || within 0x200C 0x200D n || within 0x2070 0x218F n ||
    within 0x2C00 0x2FEF n || within 0x3001 0xD7FF n || within 0xF900 0xFDCF n ||
    within 0xFDF0 0xFFFD n || within 0x10000 0xEFFFF n

/-- A character that may stand in a name after the first. -/
def isNameChar (c : Char) : Bool :=
  let n := c.toNat
  if n < 0x80 then c.isAlphanum || c == '_' || c == '-' || c == '.'
  else isNameStart c || n == 0xB7 || within 0x300 0x36F n || within 0x203F 0x2040 n

/-! ### Writing attribute values -/

/-- How a character stands between the quotes of an attribute: the five characters of markup
become references to their names. -/
def escapedChar (c : Char) : List Char :=
  if c = '&' then ['&', 'a', 'm', 'p', ';']
  else if c = '<' then ['&', 'l', 't', ';']
  else if c = '>' then ['&', 'g', 't', ';']
  else if c = '\x22' then ['&', 'q', 'u', 'o', 't', ';']
  else if c = '\x27' then ['&', 'a', 'p', 'o', 's', ';']
  else [c]

/-- A value as it stands between the quotes of an attribute. -/
def escaped (value : List Char) : List Char :=
  value.flatMap escapedChar

end ScreenInspector.Markup
