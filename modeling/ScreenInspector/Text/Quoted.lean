/-
  ScreenInspector/Text/Quoted.lean
  ================================
  **Quoted text**: the form in which messages show a text that came from outside.

  The text stands between double quotes.  A double quote and a backslash get a backslash
  before them; tab, line feed, carriage return and NUL have escapes of one letter or
  digit; every other character that would not be seen is written by its code point in
  hexadecimal digits between braces.
-/
import ScreenInspector.Text.CharClass

namespace ScreenInspector.Text

/-- The digits of `n` in base sixteen, in lower case. -/
def hexDigits (n : Nat) : List Char :=
  Nat.toDigits 16 n

/-- The escape of a character by its code point: `\u`, then the hexadecimal digits in braces. -/
def codePointEscape (c : Char) : List Char :=
  '\\' :: 'u' :: '\x7b' :: (hexDigits c.toNat ++ ['\x7d'])

/-- How one character is written between the quotes. -/
def quotedChar (c : Char) : List Char :=
  if c = '\x00' then ['\\', '0']
  else if c = '\t' then ['\\', 't']
  else if c = '\n' then ['\\', 'n']
  else if c = '\r' then ['\\', 'r']
  else if c = '\\' then ['\\', '\\']
  else if c = '\x22' then ['\\', '\x22']
  else if isShown c then [c]
  else codePointEscape c

/-- The text between double quotes, with escapes. -/
def quoted (s : String) : String :=
  String.ofList ('\x22' :: (s.toList.flatMap quotedChar ++ ['\x22']))

end ScreenInspector.Text
