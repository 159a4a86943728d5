/-
  ScreenInspector/Image/Jpeg.lean
  ===============================
  **The size that a JPEG file tells.**

  The file is a list of segments: a byte `0xFF`, a mark, the length of the segment and its data.
  The size stands in the segment that begins the frame, and it counts once a scan of that frame
  begins.  The tables and settings before the scan must be right, though nothing is read with them
  here; segments for applications and those with unknown marks are passed over.
-/
import ScreenInspector.Image.Bytes

namespace ScreenInspector.Image.Jpeg

/-! ### Frames and scans -/

/-- What the beginning of a frame tells. -/
structure Frame where
  width : Nat
  height : Nat
  /-- The names of its components. -/
  components : Bytes
deriving Repr, Inhabited

/-- Whether a number of samples in a direction fits the grid, which has at most four. -/
def isSampling (n : Nat) : Bool :=
  decide (1 ≤ n) && decide (n ≤ 4)

/-- The names of components, each with its sampling and the place of its table. -/
def components? : Bytes → Option Bytes
  | [] => some []
  | name :: sampling :: place :: rest =>
    if isSampling (upperHalf sampling) && isSampling (lowerHalf sampling) && place < 4 then
      (components? rest).map (name :: ·)
    else none
  | _ => none

/-- A frame: eight bits of precision, height, width, and one to four components. -/
def Frame.ofData? (data : Bytes) : Option Frame := do
  let (sizes, rest) ← split? 5 data
  let height := bigEndian ((sizes.drop 1).take 2)
  let width := bigEndian (sizes.drop 3)
  match rest with
  | count :: rest =>
    if sizes.head? == some 8 && width != 0 && height != 0 && 1 ≤ count && count ≤ 4 &&
        rest.length == 3 * count.toNat then
      (components? rest).map fun names => ⟨width, height, names⟩
    else none
  | [] => none

/-- The names of the components in a scan, each with the places of its codes. -/
def scanNames (bytes : Bytes) : Bytes :=
  match bytes with
  | name :: _ :: rest => name :: scanNames rest
  | _ => []

/-- Whether data begin a scan of a frame: one to four of its components, none of them twice, the
band of frequencies, and the bits of precision before and after. -/
def Frame.hasScan (f : Frame) (data : Bytes) : Bool :=
  match data with
  | count :: rest =>
    let names := scanNames (rest.take (2 * count.toNat))
    1 ≤ count && count ≤ 4 && decide names.Nodup && names.all f.components.contains &&
      match rest.drop (2 * count.toNat) with
      | [first, last, bits] =>
        first ≤ 63 && last ≤ 63 && upperHalf bits ≤ 13 && lowerHalf bits ≤ 13
      | _ => false
  | [] => false

/-! ### Tables -/

/-- Whether a byte gives a kind of table, 0 or 1, and one of the four places for it. -/
def isTableKind (b : UInt8) : Bool :=
  upperHalf b ≤ 1 && lowerHalf b < 4

/-- Whether bytes are quantization tables, each of 64 numbers of one byte or of two; `fuel` is
greater than the number of bytes. -/
def isQuantization : Nat → Bytes → Bool
  | 0, _ => false
  | _ + 1, [] => true
  | fuel + 1, kind :: rest =>
    let size := 64 * (upperHalf kind + 1)
    isTableKind kind && size ≤ rest.length && isQuantization fuel (rest.drop size)

/-- The part of all codes of 16 bits that codes with given numbers for each length take up, in
units of one code. -/
def codeShare (counts : Bytes) : Nat :=
  counts.foldl (fun n count => 2 * n + count.toNat) 0

/-- Whether bytes are tables of codes, each of 16 numbers of codes, one for each length, and the
symbols for them.  A code of ones alone is not used, and the symbols of the first kind of table are
numbers of bits.  `fuel` is greater than the number of bytes. -/
def isCoding : Nat → Bytes → Bool
  | 0, _ => false
  | _ + 1, [] => true
  | fuel + 1, kind :: rest =>
    let counts := rest.take 16
    let total := (counts.map UInt8.toNat).sum
    let symbols := (rest.drop 16).take total
    isTableKind kind && counts.length == 16 && symbols.length == total && total ≤ 256 &&
      codeShare counts < Nat.pow 2 16 && (upperHalf kind == 1 || symbols.all (· ≤ 15)) &&
      isCoding fuel (rest.drop (16 + total))

/-! ### Segments for applications -/

/-- What begins a part of metadata that did not fit into one segment. -/
def extensionName : Bytes :=
  ascii ("http" ++ "://ns.adobe.com/xmp/extension/") ++ [0]

/-- The bytes after the name: which metadata, how many bytes in all, and where the part stands. -/
def extensionHead : Nat := 32 + 4 + 4

/-- Whether a part of metadata has its head, if data are such a part. -/
def isMetadata (data : Bytes) : Bool :=
  !(extensionName.isPrefixOf data && extensionName.length < data.length) ||
    extensionName.length + extensionHead ≤ data.length

/-- Whether data tell a colour transform, one of three, if the name of the application that tells
it is there.  The name is looked for in the data and what comes after them. -/
def isTransform (data after : Bytes) : Bool :=
  !(ascii "Adobe").isPrefixOf (data ++ after) || (data.drop 11).head?.any (· ≤ 2)

/-! ### Segments -/

/-- The frame after a segment that begins no scan: the one before it, or the one that it begins.
There is none if the segment is wrong or cannot stand there. -/
def frameAfter? (mark : UInt8) (frame : Option Frame) (data after : Bytes) :
    Option (Option Frame) :=
  let sameIf := fun isRight : Bool => if isRight then some frame else none
  match mark.toNat with
  | 0xC0 => if frame.isSome then none else (Frame.ofData? data).map some
  | 0xC1 => if frame.isSome then none else (Frame.ofData? data).map some
  | 0xC2 => if frame.isSome then none else (Frame.ofData? data).map some
  | 0xC4 => sameIf (isCoding (data.length + 1) data)
  | 0xCC => none
  | 0xDB => sameIf (isQuantization (data.length + 1) data)
  | 0xDC => none
  | 0xDD => sameIf (data.length == 2)
  | 0xE1 => sameIf (isMetadata data)
  | 0xEE => sameIf (isTransform data after)
  | _ => some frame

/-- The length of the data of a segment whose length with its own two bytes is given.  The first
segment for applications has five bytes at least, if it has more than three. -/
def dataLength (mark : UInt8) (length : Nat) : Nat :=
  if mark = 0xE0 ∧ length = 6 then 5 else length - 2

/-- The size of the frame among segments up to its scan, bytes between segments left out; `fuel` is
the number of bytes. -/
def sizeIn? : Nat → Option Frame → Bytes → Option (Nat × Nat)
  | 0, _, _ => none
  | fuel + 1, frame, bytes =>
    match bytes with
    | 0xFF :: mark :: rest =>
      if mark = 0xFF then sizeIn? fuel frame (mark :: rest)
      else if mark = 0x00 then sizeIn? fuel frame rest
      else if mark = 0xD9 then none
      else do
        let (length, rest) ← split? 2 rest
        let length := bigEndian length
        if length < 2 then none
        else
          let (data, rest) ← split? (dataLength mark length) rest
          if mark = 0xDA then
            let f ← frame
            if f.hasScan data then some (f.width, f.height) else none
          else sizeIn? fuel (← frameAfter? mark frame data rest) rest
    | _ :: rest => sizeIn? fuel frame rest
    | [] => none

/-- The width and the height that a file tells after its first two bytes. -/
def size? (bytes : Bytes) : Option (Nat × Nat) :=
  sizeIn? (bytes.length + 1) none (bytes.drop 2)

end ScreenInspector.Image.Jpeg
