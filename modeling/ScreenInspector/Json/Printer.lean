/-
  ScreenInspector/Json/Printer.lean
  =================================
  **Writing JSON values**: `render` without blanks, `pretty` with one field or item to a line.

  A double is written with the fewest digits that read back to it, without an exponent if its
  leading digit stands between `10 ^ -5` and `10 ^ 15`; a value that is not finite is written
  `null`.
-/
import ScreenInspector.Json.Value
import ScreenInspector.Number.Shortest

namespace ScreenInspector.Json

/-- Doubles have a point or an exponent, and an exponent has a sign. -/
def numberLayout : Number.Layout :=
  { positionalFrom := some (-5), positionalBelow := some 16, pointZero := true, plusSign := true,
    tieUp := false }

def renderReal (x : Float) : String :=
  if Number.isFinite x then numberLayout.render x else "null"

/-- The digit of base sixteen for a number below sixteen. -/
def hexDigit (n : Nat) : Char :=
  if n < 10 then Char.ofNat ('0'.toNat + n) else Char.ofNat ('a'.toNat + (n - 10))

/-- How a character is written in a string: quote, backslash and controls are escaped. -/
def escapedChar (c : Char) : List Char :=
  if c = '\x22' then ['\\', '\x22']
  else if c = '\\' then ['\\', '\\']
  else if c = '\x08' then ['\\', 'b']
  else if c = '\t' then ['\\', 't']
  else if c = '\n' then ['\\', 'n']
  else if c = '\x0c' then ['\\', 'f']
  else if c = '\r' then ['\\', 'r']
  else if c.toNat < 0x20 then
    ['\\', 'u', '0', '0', hexDigit (c.toNat / 16), hexDigit (c.toNat % 16)]
  else [c]

def renderString (s : String) : String :=
  String.ofList ('\x22' :: (s.toList.flatMap escapedChar ++ ['\x22']))

mutual

/-- The text of a value without blanks. -/
def render : Json → String
  | .null => "null"
  | .bool true => "true"
  | .bool false => "false"
  | .whole n => toString n
  | .real x => renderReal x
  | .string s => renderString s
  | .array items => "[" ++ renderItems items ++ "]"
  | .object fields => "\x7b" ++ renderFields fields ++ "\x7d"

/-- The items of an array, separated by commas. -/
def renderItems : List Json → String
  | [] => ""
  | [v] => render v
  | v :: rest => render v ++ "," ++ renderItems rest

/-- The fields of an object, separated by commas. -/
def renderFields : List (String × Json) → String
  | [] => ""
  | [(name, v)] => renderString name ++ ":" ++ render v
  | (name, v) :: rest => renderString name ++ ":" ++ render v ++ "," ++ renderFields rest

end

/-- A new line with `depth` levels of two blanks. -/
def newLine (depth : Nat) : String :=
  String.ofList ('\n' :: List.replicate (2 * depth) ' ')

mutual

/-- The text of a value over several lines, as it stands `depth` levels deep.  Arrays and objects
without content stay on one line. -/
def prettyAt (depth : Nat) : Json → String
  | .array [] => "[]"
  | .array items => "[" ++ prettyItems (depth + 1) items ++ newLine depth ++ "]"
  | .object [] => "\x7b\x7d"
  | .object fields => "\x7b" ++ prettyFields (depth + 1) fields ++ newLine depth ++ "\x7d"
  | .null => "null"
  | .bool true => "true"
  | .bool false => "false"
  | .whole n => toString n
  | .real x => renderReal x
  | .string s => renderString s

def prettyItems (depth : Nat) : List Json → String
  | [] => ""
  | [v] => newLine depth ++ prettyAt depth v
  | v :: rest => newLine depth ++ prettyAt depth v ++ "," ++ prettyItems depth rest

def prettyFields (depth : Nat) : List (String × Json) → String
  | [] => ""
  | [(name, v)] => newLine depth ++ renderString name ++ ": " ++ prettyAt depth v
  | (name, v) :: rest =>
    newLine depth ++ renderString name ++ ": " ++ prettyAt depth v ++ "," ++
      prettyFields depth rest

end

/-- The text of a value over several lines. -/
def pretty (v : Json) : String :=
  prettyAt 0 v

end ScreenInspector.Json
