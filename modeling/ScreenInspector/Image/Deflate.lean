/-
  ScreenInspector/Image/Deflate.lean
  ==================================
  **Compressed data**: blocks of literal bytes and repetitions, with a head and a checksum.

  A block is stored as it is, or it is written in two prefix codes, one for literal bytes and
  lengths of repetitions, and one for the distances at which the repeated bytes stand.  The codes
  are fixed, or the block tells the lengths of their codewords, itself in a prefix code.

  Reading is exact: a code must be complete, a distance must not lead before the beginning, and the
  checksum must be right.  What follows the checksum is not looked at.
-/
import ScreenInspector.Image.PrefixCode

namespace ScreenInspector.Image.Deflate

/-! ### Lengths and distances -/

/-- The least amount that a symbol stands for, and the number of bits that add to it: amounts from
`least` on, with a group of symbols for each number of bits. -/
def amounts (groupSize : Nat) : (least : Nat) → List Nat → List (Nat × Nat)
  | _, [] => []
  | least, bits :: rest =>
    (List.range groupSize).map (fun i => (least + i * Nat.pow 2 bits, bits)) ++
      amounts groupSize (least + groupSize * Nat.pow 2 bits) rest

/-- The lengths of repetitions; the last symbol stands for the longest one alone. -/
def lengthAmounts : List (Nat × Nat) :=
  amounts 4 3 (0 :: List.range 6) ++ [(258, 0)]

def distanceAmounts : List (Nat × Nat) :=
  amounts 2 1 (0 :: List.range 14)

/-- The amount that a symbol and the bits after it write. -/
def amount? (table : List (Nat × Nat)) (symbol : Nat) (bits : Bits) : Option (Nat × Bits) := do
  let (least, extra) ← table[symbol]?
  let (n, bits) ← bitNumber? extra bits
  pure (least + n, bits)

/-- The bytes before with `n` more, each a copy of the one at a distance before it. -/
def copyBack (distance : Nat) : Nat → Array UInt8 → Array UInt8
  | 0, out => out
  | n + 1, out => copyBack distance n (out.push (out.getD (out.size - distance) 0))

/-! ### The two codes of a block -/

structure Codes where
  literals : PrefixCode
  distances : PrefixCode
deriving Repr, Inhabited

/-- The symbol that ends a block. -/
def blockEnd : Nat := 256

/-- The codes of a block that does not tell any. -/
def Codes.fixed : Codes :=
  let run := fun (length count : Nat) => List.replicate count length
  ⟨.ofLengths (run 8 144 ++ run 9 112 ++ run 7 24 ++ run 8 8), .ofLengths (run 5 32)⟩

/-- The order in which the lengths of the code for lengths are told. -/
def tellingOrder : List Nat :=
  [16, 17, 18, 0, 8, 7, 9, 6, 10, 5, 11, 4, 12, 3, 13, 2, 14, 1, 15]

/-- As many numbers of three bits. -/
def smallNumbers? : Nat → Bits → Option (List Nat × Bits)
  | 0, bits => some ([], bits)
  | n + 1, bits => do
    let (first, bits) ← bitNumber? 3 bits
    let (rest, bits) ← smallNumbers? n bits
    pure (first :: rest, bits)

/-- The length that a symbol of the code for lengths tells, and how often: once, the one before
again, or zero many times. -/
def run? (symbol : Nat) (before : Option Nat) (bits : Bits) : Option ((Nat × Nat) × Bits) := do
  if symbol < 16 then pure ((symbol, 1), bits)
  else if symbol = 16 then
    let (n, bits) ← bitNumber? 2 bits
    pure ((← before, n + 3), bits)
  else if symbol = 17 then
    let (n, bits) ← bitNumber? 3 bits
    pure ((0, n + 3), bits)
  else
    let (n, bits) ← bitNumber? 7 bits
    pure ((0, n + 11), bits)

/-- Lengths up to a total number, after some that are given with the last one first; `fuel` is
greater than the total. -/
def lengths? (code : PrefixCode) (total : Nat) :
    Nat → List Nat → Bits → Option (List Nat × Bits)
  | 0, _, _ => none
  | fuel + 1, done, bits =>
    if done.length = total then some (done.reverse, bits)
    else do
      let (symbol, bits) ← code.symbol? bits
      let ((length, times), bits) ← run? symbol done.head? bits
      if done.length + times ≤ total then
        lengths? code total fuel (List.replicate times length ++ done) bits
      else none

/-- The codes that a block tells. -/
def Codes.told? (bits : Bits) : Option (Codes × Bits) := do
  let (n, bits) ← bitNumber? 5 bits
  let (m, bits) ← bitNumber? 5 bits
  let (k, bits) ← bitNumber? 4 bits
  let literalCount := n + 257
  let distanceCount := m + 1
  if 286 < literalCount || 30 < distanceCount then none
  else
    let (told, bits) ← smallNumbers? (k + 4) bits
    let code := PrefixCode.ofLengths <| (List.range 19).map fun symbol =>
      ((tellingOrder.zip told).lookup symbol).getD 0
    if code.isComplete then
      let total := literalCount + distanceCount
      let (lengths, bits) ← lengths? code total (total + 1) [] bits
      let literals := PrefixCode.ofLengths (lengths.take literalCount)
      let distances := PrefixCode.ofLengths (lengths.drop literalCount)
      if lengths[blockEnd]? != some 0 && literals.isComplete &&
          (distances.isComplete || distances.isTrivial) then
        pure (⟨literals, distances⟩, bits)
      else none
    else none

/-! ### Blocks -/

/-- The bytes before and those of a block in codes; `fuel` is greater than the number of bits. -/
def coded? (c : Codes) : Nat → Array UInt8 → Bits → Option (Array UInt8 × Bits)
  | 0, _, _ => none
  | fuel + 1, out, bits => do
    let (symbol, bits) ← c.literals.symbol? bits
    if symbol < blockEnd then coded? c fuel (out.push (UInt8.ofNat symbol)) bits
    else if symbol = blockEnd then pure (out, bits)
    else
      let (length, bits) ← amount? lengthAmounts (symbol - 257) bits
      let (symbol, bits) ← c.distances.symbol? bits
      let (distance, bits) ← amount? distanceAmounts symbol bits
      if distance ≤ out.size then coded? c fuel (copyBack distance length out) bits else none

/-- The bits from the next byte on. -/
def aligned (bits : Bits) : Bits :=
  bits.drop (bits.length % 8)

/-- The bytes before and as many from the bits. -/
def plain? : Nat → Array UInt8 → Bits → Option (Array UInt8 × Bits)
  | 0, out, bits => some (out, bits)
  | n + 1, out, bits => do
    let (b, bits) ← bitNumber? 8 bits
    plain? n (out.push (UInt8.ofNat b)) bits

/-- The bytes before and those of a block that is stored as it is: its length is told twice, the
second time with all bits turned. -/
def stored? (out : Array UInt8) (bits : Bits) : Option (Array UInt8 × Bits) := do
  let (length, bits) ← bitNumber? 16 (aligned bits)
  let (turned, bits) ← bitNumber? 16 bits
  if length + turned = 0xFFFF then plain? length out bits else none

/-- The bytes before and those of all blocks up to the one that says that it is the last; `fuel` is
greater than the number of bits. -/
def blocks? : Nat → Array UInt8 → Bits → Option (Array UInt8 × Bits)
  | 0, _, _ => none
  | fuel + 1, out, bits => do
    let (isLast, bits) ← bitNumber? 1 bits
    let (kind, bits) ← bitNumber? 2 bits
    let (out, bits) ←
      match kind with
      | 0 => stored? out bits
      | 1 => coded? .fixed (bits.length + 1) out bits
      | 2 => do
        let (codes, bits) ← Codes.told? bits
        coded? codes (bits.length + 1) out bits
      | _ => none
    if isLast = 1 then pure (out, bits) else blocks? fuel out bits

/-! ### Head and checksum -/

/-- Two sums modulo the greatest prime of 16 bits, of the bytes and of the first sum. -/
def checksum (bytes : Array UInt8) : Nat :=
  let modulus := 65521
  let (a, b) := bytes.foldl (fun (a, b) byte =>
    let a := (a + byte.toNat) % modulus
    (a, (b + a) % modulus)) (1, 0)
  b * 65536 + a

/-- Whether two bytes name the method and a window of at most 32 KiB, without a dictionary, and are
together a multiple of 31. -/
def isHead (method flags : UInt8) : Bool :=
  lowerHalf method == 8 && upperHalf method ≤ 7 && flags &&& 0x20 == 0 &&
    bigEndian [method, flags] % 31 == 0

/-- The data that bytes hold in compressed form. -/
def inflate? : Bytes → Option (Array UInt8)
  | method :: flags :: bytes => do
    if isHead method flags then
      let (out, rest) ← blocks? (8 * bytes.length + 1) #[] (bitsOf bytes)
      let (sum, _) ← split? 4 (bytes.drop (bytes.length - rest.length / 8))
      if bigEndian sum = checksum out then pure out else none
    else none
  | _ => none

end ScreenInspector.Image.Deflate
