/-
  ScreenInspector/Number/Reading.lean
  ===================================
  **Reading decimal texts as doubles.**

  `scaled` is the double nearest to `coefficient · 10 ^ exponent`.  `ofText?` reads the
  written forms: digits with at most one point, an optional sign and an optional exponent,
  and the names of the values that are not finite, in any case of their letters.
-/
import ScreenInspector.Number.Shortest

namespace ScreenInspector.Number

/-- The number written by decimal digits, most significant first. -/
def ofDigitChars (cs : List Char) : Nat :=
  cs.foldl (fun n c => n * 10 + (c.toNat - '0'.toNat)) 0

/-- The double nearest to `coefficient · 10 ^ exponent`.  Beyond `10 ^ 310` that is infinity and
below `10 ^ -330` zero. -/
def scaled (coefficient : Nat) (exponent : Int) : Float :=
  if coefficient = 0 then 0.0
  else if exponent = 0 ∧ coefficient < Nat.pow 2 64 then ofNat coefficient
  else
    let size := (decimalLength coefficient : Int) + exponent
    if 310 < size then infinity
    else if size < -330 then 0.0
    else if 0 ≤ exponent then Float.ofScientific coefficient false exponent.toNat
    else Float.ofScientific coefficient true (-exponent).toNat

/-- An optional sign, and what follows it. -/
def splitSign : List Char → Bool × List Char
  | '+' :: rest => (false, rest)
  | '-' :: rest => (true, rest)
  | cs => (false, cs)

/-- The exponent part of a number: nothing, or `e`, an optional sign and at least one digit up to
the end. -/
def exponentPart? : List Char → Option Int
  | [] => some 0
  | c :: rest =>
    if c.toLower = 'e' then
      let (negative, ds) := splitSign rest
      if ds.isEmpty || !ds.all Char.isDigit then none
      else
        let n : Int := ofDigitChars ds
        some (if negative then -n else n)
    else none

/-- Digits with at most one point, at least one digit in all, and an optional exponent. -/
def magnitude? (cs : List Char) : Option Float :=
  let whole := cs.takeWhile Char.isDigit
  let (fraction, rest) :=
    match cs.dropWhile Char.isDigit with
    | '.' :: more => (more.takeWhile Char.isDigit, more.dropWhile Char.isDigit)
    | more => ([], more)
  if whole.isEmpty && fraction.isEmpty then none
  else (exponentPart? rest).map fun e =>
    scaled (ofDigitChars (whole ++ fraction)) (e - (fraction.length : Int))

/-- The double that a text writes, if it writes one. -/
def ofText? (cs : List Char) : Option Float :=
  let (negative, body) := splitSign cs
  let name := String.ofList (body.map Char.toLower)
  let size :=
    if name == "inf" || name == "infinity" then some infinity
    else if name == "nan" then some nan
    else magnitude? body
  size.map fun x => if negative then -x else x

end ScreenInspector.Number
