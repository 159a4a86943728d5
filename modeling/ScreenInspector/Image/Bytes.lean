/-
  ScreenInspector/Image/Bytes.lean
  ================================
  **Bytes of files**: numbers in them, and cutting them into parts.

  Both picture formats write numbers with the most significant byte first, and both say how long a
  part is before it comes.  A part that is longer than what is left of the file does not exist.
-/

namespace ScreenInspector.Image

abbrev Bytes := List UInt8

/-- The number that bytes write in base 256, the most significant first. -/
def bigEndian (bytes : Bytes) : Nat :=
  bytes.foldl (fun n b => n * 256 + b.toNat) 0

/-- The first `n` bytes and the rest, if there are so many. -/
def split? (n : Nat) (bytes : Bytes) : Option (Bytes × Bytes) :=
  if n ≤ bytes.length then some (bytes.take n, bytes.drop n) else none

/-- The bytes of a text of ASCII characters. -/
def ascii (text : String) : Bytes :=
  text.toList.map fun c => UInt8.ofNat c.toNat

/-- The upper four bits of a byte. -/
def upperHalf (b : UInt8) : Nat :=
  b.toNat / 16

/-- The lower four bits of a byte. -/
def lowerHalf (b : UInt8) : Nat :=
  b.toNat % 16

end ScreenInspector.Image
