/-
  ScreenInspector/Number/Binary64.lean
  ====================================
  **Doubles as exact numbers.**

  A finite double is `± significand · 2 ^ exponent`.  `Parts` is that reading of its bits,
  `ofParts` the way back for a number that is a double already.  Whole numbers and the
  remainder of a division are computed on the parts, so nothing is rounded on the way.
-/

namespace ScreenInspector.Number

/-- Sign, significand and binary exponent of a finite double. -/
structure Parts where
  negative : Bool
  significand : Nat
  exponent : Int
deriving DecidableEq, Repr

/-- The biased exponent field of the bits. -/
def exponentField (x : Float) : Nat :=
  (x.toBits.toNat / Nat.pow 2 52) % Nat.pow 2 11

/-- The parts of a finite double; of the others only the sign means something. -/
def parts (x : Float) : Parts :=
  let bits := x.toBits.toNat
  let fraction := bits % Nat.pow 2 52
  let field := exponentField x
  if field = 0 then ⟨decide (Nat.pow 2 63 ≤ bits), fraction, -1074⟩
  else ⟨decide (Nat.pow 2 63 ≤ bits), fraction + Nat.pow 2 52, (field : Int) - 1075⟩

/-- Neither infinite nor NaN: the exponent field is not full. -/
def isFinite (x : Float) : Bool :=
  exponentField x != 2047

/-- The double `± significand · 2 ^ exponent`, for a number that is one. -/
def ofParts (p : Parts) : Float :=
  let sign : Nat := if p.negative then Nat.pow 2 63 else 0
  if p.significand = 0 then Float.ofBits (UInt64.ofNat sign)
  else
    let shift : Int := 52 - (Nat.log2 p.significand : Int)
    let exponent := p.exponent - shift
    if exponent < -1074 then
      Float.ofBits (UInt64.ofNat (sign + p.significand * Nat.pow 2 (p.exponent + 1074).toNat))
    else
      let significand :=
        if 0 ≤ shift then p.significand * Nat.pow 2 shift.toNat
        else p.significand / Nat.pow 2 (-shift).toNat
      Float.ofBits
        (UInt64.ofNat
          (sign + (exponent + 1075).toNat * Nat.pow 2 52 + (significand - Nat.pow 2 52)))

/-- The whole number that a finite double is, if it is one. -/
def toInt? (x : Float) : Option Int :=
  if !isFinite x then none
  else
    let p := parts x
    let magnitude : Option Nat :=
      if 0 ≤ p.exponent then some (p.significand * Nat.pow 2 p.exponent.toNat)
      else
        let unit := Nat.pow 2 (-p.exponent).toNat
        if p.significand % unit = 0 then some (p.significand / unit) else none
    magnitude.map fun n => if p.negative then -(n : Int) else (n : Int)

/-- A natural number below `2 ^ 64` as the nearest double. -/
def ofNat (n : Nat) : Float :=
  n.toUInt64.toFloat

/-- A whole number of at most 64 bits as the nearest double. -/
def ofInt (n : Int) : Float :=
  if n < 0 then -(ofNat n.natAbs) else ofNat n.natAbs

/-- Positive, negative infinity and NaN. -/
def infinity : Float := 1.0 / 0.0

def negativeInfinity : Float := -infinity

def nan : Float := 0.0 / 0.0

/-- The remainder of dividing `x` by `y`: what is left after taking away the multiple of `y`
by the quotient cut towards zero.  It has the sign of `x`; by zero and for an infinite `x` there
is none, and an infinite `y` leaves `x` as it is. -/
def remainder (x y : Float) : Float :=
  if x.isNaN || y.isNaN || !isFinite x || y == 0.0 then nan
  else if !isFinite y then x
  else
    let a := parts x
    let b := parts y
    let unit := min a.exponent b.exponent
    let dividend := a.significand * Nat.pow 2 (a.exponent - unit).toNat
    let divisor := b.significand * Nat.pow 2 (b.exponent - unit).toNat
    ofParts ⟨a.negative, dividend % divisor, unit⟩

end ScreenInspector.Number
