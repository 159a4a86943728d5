/-
  ScreenInspector/Yaml/PlainValue.lean
  ====================================
  **What a plain scalar means**: nothing, a truth value, a whole number, a number, or just its
  text.
-/
import ScreenInspector.Number.Reading

namespace ScreenInspector.Yaml

/-- The words for nothing. -/
def isNull (cs : List Char) : Bool :=
  ["null", "Null", "NULL", "~"].contains (String.ofList cs)

/-- The truth value of a word. -/
def truthValue? (cs : List Char) : Option Bool :=
  match String.ofList cs with
  | "true" => some true
  | "True" => some true
  | "TRUE" => some true
  | "false" => some false
  | "False" => some false
  | "FALSE" => some false
  | _ => none

/-! ### Whole numbers -/

/-- Digits with a zero before them, which write no number. -/
def isZeroPadded (cs : List Char) : Bool :=
  match cs with
  | '+' :: '0' :: d :: rest => (d :: rest).all Char.isDigit
  | '-' :: '0' :: d :: rest => (d :: rest).all Char.isDigit
  | '0' :: d :: rest => (d :: rest).all Char.isDigit
  | _ => false

/-- The value of a digit of a base up to sixteen. -/
def digitValue? (base : Nat) (c : Char) : Option Nat :=
  let n :=
    if c.isDigit then c.toNat - '0'.toNat
    else if decide ('a' ≤ c) && decide (c ≤ 'f') then c.toNat - 'a'.toNat + 10
    else if decide ('A' ≤ c) && decide (c ≤ 'F') then c.toNat - 'A'.toNat + 10
    else base
  if n < base then some n else none

/-- The number that digits write in a base; there must be one digit at least. -/
def digitsValue? (base : Nat) : List Char → Option Nat
  | [] => none
  | cs => cs.foldl (fun n c => do pure ((← n) * base + (← digitValue? base c))) (some 0)

/-- The number that a text without sign writes, possibly in another base than ten. -/
def unsigned? : List Char → Option Nat
  | '0' :: 'x' :: rest => digitsValue? 16 rest
  | '0' :: 'o' :: rest => digitsValue? 8 rest
  | '0' :: 'b' :: rest => digitsValue? 2 rest
  | cs => if isZeroPadded cs then none else digitsValue? 10 cs

/-- The number from zero on that a plain scalar writes. -/
def natural? : List Char → Option Nat
  | '+' :: rest => unsigned? rest
  | cs => unsigned? cs

/-- The size of a number below zero that a plain scalar writes. -/
def negated? : List Char → Option Nat
  | '-' :: rest => unsigned? rest
  | _ => none

/-- Whether a plain scalar writes a whole number of at most 128 bits. -/
def isWhole (cs : List Char) : Bool :=
  (natural? cs).any (fun n => decide (n < Nat.pow 2 128)) ||
    (negated? cs).any fun n => decide (n ≤ Nat.pow 2 127)

/-! ### Other numbers -/

def infinityWords : List String := [".inf", ".Inf", ".INF", "+.inf", "+.Inf", "+.INF",
  "-.inf", "-.Inf", "-.INF"]

def nanWords : List String := [".nan", ".NaN", ".NAN"]

/-- Whether a plain scalar writes a number that need not be whole. -/
def isReal (cs : List Char) : Bool :=
  let text := String.ofList cs
  infinityWords.contains text || nanWords.contains text ||
    (!isZeroPadded cs &&
      match Number.ofText? cs with
      | some x => Number.isFinite x
      | none => false)

/-- Whether a plain scalar would not be read as a text. -/
def isNoText (cs : List Char) : Bool :=
  cs.isEmpty || isNull cs || (truthValue? cs).isSome || isWhole cs || isReal cs || isZeroPadded cs

end ScreenInspector.Yaml
