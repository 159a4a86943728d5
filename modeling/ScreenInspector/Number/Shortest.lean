/-
  ScreenInspector/Number/Shortest.lean
  ====================================
  **Shortest decimal text of a double.**

  A double stands for every real number that rounds to it: an interval around
  `significand · 2 ^ exponent` that holds its ends iff the significand is even.  Of the
  decimals in the interval those with the fewest digits are taken, and of these the one
  nearest to the double.  The search goes from one digit to seventeen and looks at the two
  neighbours of the double on the grid of decimals with that many digits; if any point of a
  grid lies in the interval, one of these two does.

  A `Layout` decides how the digits are set: a record per output format.
-/
import ScreenInspector.Number.Binary64

namespace ScreenInspector.Number

/-- A positive decimal, `digits · 10 ^ exponent`. -/
structure Digits where
  digits : Nat
  exponent : Int
deriving DecidableEq, Repr

/-- The number of decimal digits of `n`. -/
def decimalLength (n : Nat) : Nat :=
  (Nat.toDigits 10 n).length

/-- The interval of reals that round to a double, over a common denominator. -/
structure Interval where
  low : Nat
  middle : Nat
  high : Nat
  denominator : Nat
  closed : Bool

/-- The interval of `significand · 2 ^ exponent`.  The gap below a power of two is half as wide
as the gap above it, the smallest exponent apart. -/
def Interval.of (significand : Nat) (exponent : Int) : Interval :=
  let unit := exponent - 2
  let scale := Nat.pow 2 unit.toNat
  let below := if significand = Nat.pow 2 52 ∧ exponent ≠ -1074 then 1 else 2
  { low := (4 * significand - below) * scale
    middle := 4 * significand * scale
    high := (4 * significand + 2) * scale
    denominator := Nat.pow 2 (-unit).toNat
    closed := significand % 2 = 0 }

/-- The exponent `e` with `10 ^ e ≤ numerator / denominator < 10 ^ (e + 1)`. -/
def leadingExponent (numerator denominator : Nat) : Int :=
  let guess : Int := (decimalLength numerator : Int) - (decimalLength denominator : Int)
  if denominator * Nat.pow 10 guess.toNat ≤ numerator * Nat.pow 10 (-guess).toNat then guess
  else guess - 1

/-- The better of the two neighbours of the middle on the grid of multiples of `10 ^ step`,
if one lies in the interval. -/
def Interval.onGrid? (i : Interval) (step : Int) (tieUp : Bool) : Option Nat :=
  let up := Nat.pow 10 (-step).toNat
  let unit := i.denominator * Nat.pow 10 step.toNat
  let below := i.middle * up / unit
  let left := i.middle * up % unit
  let lowIn :=
    decide (i.low * up < below * unit) || (i.closed && decide (i.low * up ≤ below * unit))
  let highIn :=
    decide ((below + 1) * unit < i.high * up) ||
      (i.closed && decide ((below + 1) * unit ≤ i.high * up))
  match lowIn && below != 0, highIn with
  | true, true =>
    if 2 * left < unit then some below
    else if unit < 2 * left then some (below + 1)
    else if tieUp then some (below + 1)
    else some (if below % 2 = 0 then below else below + 1)
  | true, false => some below
  | false, true => some (below + 1)
  | false, false => none

/-- The first grid with a hit, from `count` digits on, with `fuel` grids left to try. -/
def Interval.search (i : Interval) (leading : Int) (tieUp : Bool) : Nat → Nat → Digits
  | 0, _ => ⟨0, 0⟩
  | fuel + 1, count =>
    let step := leading - (count : Int) + 1
    match i.onGrid? step tieUp with
    | some digits => ⟨digits, step⟩
    | none => Interval.search i leading tieUp fuel (count + 1)

/-- A decimal without zeros at its end; `fuel` bounds their number. -/
def Digits.stripped : Nat → Digits → Digits
  | 0, d => d
  | fuel + 1, d =>
    if d.digits ≠ 0 ∧ d.digits % 10 = 0 then
      Digits.stripped fuel ⟨d.digits / 10, d.exponent + 1⟩
    else d

/-- The shortest decimal that reads back as `significand · 2 ^ exponent`. -/
def shortest (significand : Nat) (exponent : Int) (tieUp : Bool) : Digits :=
  let i := Interval.of significand exponent
  Digits.stripped 20 (i.search (leadingExponent i.middle i.denominator) tieUp 17 1)

/-! ### Layouts -/

/-- How the digits of a double are set. -/
structure Layout where
  /-- Least exponent of the leading digit that is written without an exponent, if there is one. -/
  positionalFrom : Option Int
  /-- Exponents of the leading digit from here on are written with an exponent, if any are. -/
  positionalBelow : Option Int
  /-- Whole numbers written without an exponent end in `.0`. -/
  pointZero : Bool
  /-- An exponent that is not negative gets a plus sign. -/
  plusSign : Bool
  /-- Of two equally near decimals the larger is taken; otherwise the one whose last digit is
  even. -/
  tieUp : Bool
deriving DecidableEq, Repr

/-- Every number without an exponent, whole numbers without a point. -/
def Layout.plain : Layout :=
  { positionalFrom := none, positionalBelow := none, pointZero := false, plusSign := false,
    tieUp := true }

/-- Whether a number whose leading digit has exponent `e` is written without an exponent. -/
def Layout.isPositional (l : Layout) (e : Int) : Bool :=
  (match l.positionalFrom with
    | none => true
    | some low => decide (low ≤ e)) &&
  (match l.positionalBelow with
    | none => true
    | some high => decide (e < high))

/-- The digits without an exponent. -/
def Layout.positional (l : Layout) (ds : List Char) (exponent : Int) : List Char :=
  if 0 ≤ exponent then
    ds ++ List.replicate exponent.toNat '0' ++ (if l.pointZero then ['.', '0'] else [])
  else
    let places := (-exponent).toNat
    if places < ds.length then
      ds.take (ds.length - places) ++ '.' :: ds.drop (ds.length - places)
    else '0' :: '.' :: (List.replicate (places - ds.length) '0' ++ ds)

/-- One digit, the others after a point, and the exponent. -/
def Layout.scientific (l : Layout) (ds : List Char) (leading : Int) : List Char :=
  let mantissa := match ds with
    | d :: e :: rest => d :: '.' :: e :: rest
    | short => short
  let mark := if leading < 0 then ['e', '-'] else if l.plusSign then ['e', '+'] else ['e']
  mantissa ++ mark ++ Nat.toDigits 10 leading.natAbs

/-- The text of a double. -/
def Layout.render (l : Layout) (x : Float) : String :=
  if x.isNaN then "NaN"
  else
    let p := parts x
    let sign := if p.negative then ['-'] else []
    if !isFinite x then String.ofList (sign ++ ['i', 'n', 'f'])
    else if p.significand = 0 then
      String.ofList (sign ++ (if l.pointZero then ['0', '.', '0'] else ['0']))
    else
      let d := shortest p.significand p.exponent l.tieUp
      let ds := Nat.toDigits 10 d.digits
      let leading := d.exponent + (ds.length : Int) - 1
      let body :=
        if l.isPositional leading then l.positional ds d.exponent else l.scientific ds leading
      String.ofList (sign ++ body)

/-- The text of a double without an exponent: `500`, `0.1`, `-0`, `NaN`, `inf`. -/
def plainText (x : Float) : String :=
  Layout.plain.render x

end ScreenInspector.Number
