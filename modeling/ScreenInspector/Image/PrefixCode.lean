/-
  ScreenInspector/Image/PrefixCode.lean
  =====================================
  **Bits and canonical prefix codes.**

  A prefix code writes symbols with codewords of different lengths, none of which begins another.
  In canonical form the lengths tell everything: shorter codewords come before longer ones, those of
  one length are consecutive numbers in the order of their symbols, and each length goes on where
  the one before it ended.
-/
import ScreenInspector.Image.Bytes

namespace ScreenInspector.Image

abbrev Bits := List Bool

/-- The bits of bytes, of each byte the lowest first. -/
def bitsOf (bytes : Bytes) : Bits :=
  bytes.flatMap fun b => (List.range 8).map b.toNat.testBit

/-- A number of `n` bits, the lowest first, and the bits after it. -/
def bitNumber? : Nat → Bits → Option (Nat × Bits)
  | 0, bits => some (0, bits)
  | _ + 1, [] => none
  | n + 1, b :: bits => (bitNumber? n bits).map fun p => (2 * p.1 + b.toNat, p.2)

structure PrefixCode where
  /-- The number of codewords of each length, from one bit on. -/
  counts : List Nat
  /-- The symbols in the order of their codewords. -/
  symbols : Array Nat
deriving Repr, Inhabited

namespace PrefixCode

/-- The bits of the longest codeword that can be. -/
def longest : Nat := 15

/-- The code in which symbols have codewords of given lengths; a symbol with the length zero has
none. -/
def ofLengths (lengths : List Nat) : PrefixCode :=
  let groups := (List.range longest).map fun n =>
    (lengths.zipIdx.filter fun p => p.1 == n + 1).map Prod.snd
  ⟨groups.map List.length, groups.flatten.toArray⟩

variable (c : PrefixCode)

/-- How many of the words of the longest length begin with a codeword, if no codeword begins
another. -/
def share : Nat :=
  c.counts.foldl (fun n count => 2 * n + count) 0

/-- Whether each word of the longest length begins with exactly one codeword. -/
def isComplete : Bool :=
  c.share == Nat.pow 2 longest

/-- Whether there is one codeword at most, and that is a single bit. -/
def isTrivial : Bool :=
  c.symbols.size == 0 || (c.symbols.size == 1 && c.counts.head? == some 1)

/-- The place of the codeword that bits begin with, and the bits after it: `offset` is how far the
bits read before lie behind the codewords of their length, and `place` counts those codewords and
the shorter ones. -/
def placeIn? : List Nat → Nat → Nat → Bits → Option (Nat × Bits)
  | count :: counts, offset, place, b :: bits =>
    let offset := 2 * offset + b.toNat
    if offset < count then some (place + offset, bits)
    else placeIn? counts (offset - count) (place + count) bits
  | _, _, _, _ => none

/-- The symbol whose codeword bits begin with, and the bits after it. -/
def symbol? (bits : Bits) : Option (Nat × Bits) := do
  let (place, bits) ← placeIn? c.counts 0 0 bits
  pure (← c.symbols[place]?, bits)

end PrefixCode

end ScreenInspector.Image
