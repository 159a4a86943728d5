/-
  ScreenInspector/Json/Reader.lean
  ================================
  **Reading JSON text.**

  `read limit text` accepts one value with blanks around it and at most `limit` arrays and
  objects inside one another.  Of two fields with one name the later counts.  A string holds
  no raw control character, and its escapes of code points above U+FFFF come in pairs of
  surrogates.

  A whole number that fits 64 bits, with or without sign, stays exact.  Every other number is a
  double: the digits that fit a 64-bit significand, scaled once by a power of ten.  A number
  that would be infinite is refused.

  `value` recurses on the number of levels that may still be opened; the loops over items and
  fields end by a bound on the number of members.
-/
import ScreenInspector.Json.Value
import ScreenInspector.Number.Reading

namespace ScreenInspector.Json

/-- Why a text is no JSON value. -/
inductive Fault where
  | endOfText
  | unexpected (c : Char)
  | badNumber
  | numberTooLarge
  | badEscape
  | controlInString
  | tooDeep
  | textAfterValue
deriving DecidableEq, Repr

def Fault.message : Fault → String
  | .endOfText => "the text ends inside a value"
  | .unexpected c => "unexpected character " ++ String.ofList [c]
  | .badNumber => "not a number"
  | .numberTooLarge => "number out of range"
  | .badEscape => "bad escape in a string"
  | .controlInString => "control character in a string"
  | .tooDeep => "arrays and objects nested too deep"
  | .textAfterValue => "text after the value"

/-- What a reader makes of a text: a result and the characters after it. -/
abbrev Reader (α : Type) := List Char → Except Fault (α × List Char)

/-- The blanks of the format. -/
def isGap (c : Char) : Bool :=
  c == ' ' || c == '\n' || c == '\t' || c == '\r'

def skipGap (cs : List Char) : List Char :=
  cs.dropWhile isGap

/-- The fault of a text that should have gone on otherwise. -/
def unexpectedAt : List Char → Fault
  | [] => .endOfText
  | c :: _ => .unexpected c

/-- Removes a given beginning from a text. -/
def expectChars : List Char → List Char → Except Fault (List Char)
  | [], cs => .ok cs
  | _ :: _, [] => .error .endOfText
  | e :: es, c :: cs => if e = c then expectChars es cs else .error (.unexpected c)

/-! ### Strings -/

/-- The value of a digit of base sixteen. -/
def hexValue? (c : Char) : Option Nat :=
  let n := c.toNat
  if '0' ≤ c ∧ c ≤ '9' then some (n - '0'.toNat)
  else if 'a' ≤ c ∧ c ≤ 'f' then some (n - 'a'.toNat + 10)
  else if 'A' ≤ c ∧ c ≤ 'F' then some (n - 'A'.toNat + 10)
  else none

/-- The number that four digits of base sixteen write. -/
def hexQuad? (a b c d : Char) : Option Nat := do
  let a ← hexValue? a
  let b ← hexValue? b
  let c ← hexValue? c
  let d ← hexValue? d
  pure (((a * 16 + b) * 16 + c) * 16 + d)

/-- The character of an escape of one letter. -/
def shortEscape? (c : Char) : Option Char :=
  if c = '\x22' then some '\x22'
  else if c = '\\' then some '\\'
  else if c = '/' then some '/'
  else if c = 'b' then some '\x08'
  else if c = 'f' then some '\x0c'
  else if c = 'n' then some '\n'
  else if c = 'r' then some '\r'
  else if c = 't' then some '\t'
  else none

/-- The characters of a string up to its closing quote. -/
def stringBody : Reader (List Char)
  | [] => .error .endOfText
  | '\x22' :: rest => .ok ([], rest)
  | '\\' :: 'u' :: a :: b :: c :: d :: rest =>
    match hexQuad? a b c d with
    | none => .error .badEscape
    | some high =>
      if 0xDC00 ≤ high ∧ high ≤ 0xDFFF then .error .badEscape
      else if 0xD800 ≤ high ∧ high < 0xDC00 then
        match rest with
        | '\\' :: 'u' :: a' :: b' :: c' :: d' :: rest' =>
          match hexQuad? a' b' c' d' with
          | none => .error .badEscape
          | some low =>
            if 0xDC00 ≤ low ∧ low ≤ 0xDFFF then do
              let (cs, after) ← stringBody rest'
              pure (Char.ofNat (0x10000 + (high - 0xD800) * 0x400 + (low - 0xDC00)) :: cs, after)
            else .error .badEscape
        | _ => .error .badEscape
      else do
        let (cs, after) ← stringBody rest
        pure (Char.ofNat high :: cs, after)
  | '\\' :: e :: rest =>
    match shortEscape? e with
    | none => .error .badEscape
    | some c => do
      let (cs, after) ← stringBody rest
      pure (c :: cs, after)
  | c :: rest =>
    if c.toNat < 0x20 then .error .controlInString
    else do
      let (cs, after) ← stringBody rest
      pure (c :: cs, after)

/-! ### Numbers -/

/-- A power of ten as a double. -/
def powerOfTen (n : Nat) : Float :=
  Float.ofScientific 1 false n

/-- A significand of 64 bits scaled by a power of ten: one rounding for the significand and one
for the scaling, two if the number is smaller than `10 ^ -308`. -/
def scaledOnce (significand : Nat) (exponent : Int) : Except Fault Float :=
  let x := Number.ofNat significand
  if 0 ≤ exponent then
    if significand = 0 then .ok x
    else if 308 < exponent then .error .numberTooLarge
    else
      let y := x * powerOfTen exponent.toNat
      if Number.isFinite y then .ok y else .error .numberTooLarge
  else
    let n := exponent.natAbs
    if n ≤ 308 then .ok (x / powerOfTen n)
    else if n ≤ 616 then .ok (x / powerOfTen 308 / powerOfTen (n - 308))
    else .ok 0.0

/-- The digits that fit a significand of 64 bits, and how many do not. -/
def significandOf : Nat → List Char → Nat × Nat
  | n, [] => (n, 0)
  | n, c :: rest =>
    let next := n * 10 + (c.toNat - '0'.toNat)
    if next < Nat.pow 2 64 then significandOf next rest else (n, rest.length + 1)

/-- The exponent of a number after its mark: an optional sign and digits. -/
def exponentAfterMark : Reader Int := fun cs =>
  let (negative, body) := Number.splitSign cs
  let ds := body.takeWhile Char.isDigit
  let rest := body.dropWhile Char.isDigit
  if ds.isEmpty then .error (if body.isEmpty then .endOfText else .badNumber)
  else
    let n : Int := Number.ofDigitChars ds
    .ok (if negative then -n else n, rest)

/-- The optional exponent of a number. -/
def exponentPart : Reader (Option Int)
  | 'e' :: rest => (exponentAfterMark rest).map fun (n, after) => (some n, after)
  | 'E' :: rest => (exponentAfterMark rest).map fun (n, after) => (some n, after)
  | cs => .ok (none, cs)

/-- The optional digits after a point, of which there is at least one. -/
def fractionPart : Reader (Option (List Char))
  | '.' :: rest =>
    let ds := rest.takeWhile Char.isDigit
    if ds.isEmpty then .error (if rest.isEmpty then .endOfText else .badNumber)
    else .ok (some ds, rest.dropWhile Char.isDigit)
  | cs => .ok (none, cs)

/-- The value of a number whose digits all fit or whose whole part overflows the significand.
Digits of the fraction that do not fit are dropped. -/
def numberOf (negative : Bool) (whole : List Char) (fraction : Option (List Char))
    (exponent : Option Int) : Except Fault Json :=
  let (n, dropped) := significandOf 0 whole
  match fraction, exponent, dropped with
  | none, none, 0 =>
    if !negative then .ok (.whole n)
    else if n = 0 ∨ Nat.pow 2 63 < n then .ok (.real (-(Number.ofNat n)))
    else .ok (.whole (-(n : Int)))
  | _, _, _ =>
    let ds := fraction.getD []
    let (m, left) := significandOf n ds
    let taken := ds.length - left
    let e := (dropped : Int) - (taken : Int) + exponent.getD 0
    (scaledOnce m e).map fun x => .real (if negative then -x else x)

/-- The digits of the whole part: no zero before others. -/
def wholePart : Reader (List Char)
  | [] => .error .endOfText
  | c :: more =>
    if c = '0' then
      match more with
      | d :: _ => if d.isDigit then .error .badNumber else .ok (['0'], more)
      | [] => .ok (['0'], [])
    else if c.isDigit then
      .ok ((c :: more).takeWhile Char.isDigit, (c :: more).dropWhile Char.isDigit)
    else .error .badNumber

/-- A number after its sign. -/
def numberAfterSign (negative : Bool) : Reader Json := fun cs => do
  let (digits, rest) ← wholePart cs
  let (fraction, rest) ← fractionPart rest
  let (exponent, rest) ← exponentPart rest
  let v ← numberOf negative digits fraction exponent
  pure (v, rest)

def number : Reader Json
  | '-' :: rest => numberAfterSign true rest
  | cs => numberAfterSign false cs

/-! ### Values -/

/-- The items of an array after its first bracket; `fuel` is at least the number of characters
left. -/
def itemsLoop (item : Reader Json) : Nat → Reader (List Json)
  | 0, _ => .error .endOfText
  | fuel + 1, cs => do
    let (v, rest) ← item cs
    match skipGap rest with
    | ',' :: rest =>
      let (vs, rest) ← itemsLoop item fuel (skipGap rest)
      pure (v :: vs, rest)
    | ']' :: rest => pure ([v], rest)
    | other => .error (unexpectedAt other)

/-- The fields of an object from a first name on; `fuel` is at least the number of characters
left. -/
def fieldsLoop (item : Reader Json) : Nat → Reader (List (String × Json))
  | 0, _ => .error .endOfText
  | fuel + 1, cs =>
    match cs with
    | '\x22' :: rest => do
      let (name, rest) ← stringBody rest
      let rest ← expectChars [':'] (skipGap rest)
      let (v, rest) ← item (skipGap rest)
      match skipGap rest with
      | ',' :: rest =>
        let (fields, rest) ← fieldsLoop item fuel (skipGap rest)
        pure ((String.ofList name, v) :: fields, rest)
      | '\x7d' :: rest => pure ([(String.ofList name, v)], rest)
      | other => .error (unexpectedAt other)
    | other => .error (unexpectedAt other)

/-- A value whose arrays and objects hold what `item` reads; without `item` there are none.  No
array or object has more than `most` members. -/
def valueWith (most : Nat) (item : Option (Reader Json)) : Reader Json
  | [] => .error .endOfText
  | c :: rest =>
    if c = '\x22' then (stringBody rest).map fun (s, after) => (.string (String.ofList s), after)
    else if c = 'n' then (expectChars ['u', 'l', 'l'] rest).map fun after => (.null, after)
    else if c = 't' then (expectChars ['r', 'u', 'e'] rest).map fun after => (.bool true, after)
    else if c = 'f' then
      (expectChars ['a', 'l', 's', 'e'] rest).map fun after => (.bool false, after)
    else if c = '-' || c.isDigit then number (c :: rest)
    else if c = '[' then
      match item, skipGap rest with
      | none, _ => .error .tooDeep
      | some _, ']' :: after => .ok (.array [], after)
      | some item, body =>
        (itemsLoop item most body).map fun (vs, after) => (.array vs, after)
    else if c = '\x7b' then
      match item, skipGap rest with
      | none, _ => .error .tooDeep
      | some _, '\x7d' :: after => .ok (.object [], after)
      | some item, body =>
        (fieldsLoop item most body).map fun (fields, after) => (ofPairs fields, after)
    else .error (.unexpected c)

/-- A value with at most so many arrays and objects inside one another. -/
def value (most : Nat) : Nat → Reader Json
  | 0 => valueWith most none
  | depth + 1 => valueWith most (some (value most depth))

/-- The value of a text in which at most `limit` arrays and objects are nested.  None of them has
more members than the text has characters. -/
def read (limit : Nat) (text : String) : Except Fault Json := do
  let cs := text.toList
  let (v, rest) ← value cs.length limit (skipGap cs)
  if (skipGap rest).isEmpty then pure v else .error .textAfterValue

end ScreenInspector.Json
