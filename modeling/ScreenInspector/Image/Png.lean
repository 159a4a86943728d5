/-
  ScreenInspector/Image/Png.lean
  ==============================
  **The size that a PNG file tells.**

  The file is a signature and a list of chunks.  Each chunk is its length, its type, its data and a
  checksum of type and data.  The first one is the header, which holds the size; the size counts
  once the chunks after it lead to a picture.

  On the way nothing critical may be wrong.  A chunk that is not critical is passed over when it is
  damaged or means nothing, with a few exceptions: an intact description of a frame must be right,
  because the picture itself may be that frame, and so must be a colour space by numbers and the
  background of a picture with a palette.

  Chunks take memory: a buffer grows with the longest of them, texts are kept, and so is a colour
  profile.  What is left must do for a line of pixels.
-/
import ScreenInspector.Image.Bytes
import ScreenInspector.Image.Deflate

namespace ScreenInspector.Image.Png

/-! ### Checksums -/

/-- One bit of the checksum, with the reversed polynomial `0xEDB88320`. -/
def checksumBit (n : UInt32) : UInt32 :=
  if n &&& 1 = 1 then (n >>> 1) ^^^ 0xEDB88320 else n >>> 1

def checksumByte (sum : UInt32) (b : UInt8) : UInt32 :=
  (List.range 8).foldl (fun n _ => checksumBit n) (sum ^^^ b.toUInt32)

/-- The cyclic redundancy check of 32 bits. -/
def checksum (bytes : Bytes) : Nat :=
  (bytes.foldl checksumByte 0xFFFFFFFF ^^^ 0xFFFFFFFF).toNat

/-! ### Chunks -/

def signature : Bytes := [0x89, 0x50, 0x4E, 0x47, 0x0D, 0x0A, 0x1A, 0x0A]

def headerKind : Bytes := ascii "IHDR"
def pictureKind : Bytes := ascii "IDAT"

/-- The type of a chunk that holds the picture of a frame, which comes after the first picture. -/
def framePictureKind : Bytes := ascii "fdAT"

structure Chunk where
  kind : Bytes
  data : Bytes
  isIntact : Bool
deriving Repr, Inhabited

/-- The first chunk and the bytes after it. -/
def chunk? (bytes : Bytes) : Option (Chunk × Bytes) := do
  let (length, bytes) ← split? 4 bytes
  let (kind, bytes) ← split? 4 bytes
  let (data, bytes) ← split? (bigEndian length) bytes
  let (sum, bytes) ← split? 4 bytes
  pure (⟨kind, data, bigEndian sum == checksum (kind ++ data)⟩, bytes)

/-- A chunk is critical if the first letter of its type is in upper case. -/
def Chunk.isCritical (c : Chunk) : Bool :=
  c.kind.head?.any fun b => b &&& 0x20 == 0

/-! ### The header -/

structure Header where
  width : Nat
  height : Nat
  /-- The bits of a sample, or of a palette index. -/
  depth : UInt8
  /-- 0 grey, 2 colour, 3 palette, 4 grey with alpha, 6 colour with alpha. -/
  colorType : UInt8
deriving Repr, Inhabited

/-- The bit depths that a colour type allows. -/
def bitDepths (colorType : UInt8) : List UInt8 :=
  match colorType.toNat with
  | 0 => [1, 2, 4, 8, 16]
  | 2 => [8, 16]
  | 3 => [1, 2, 4, 8]
  | 4 => [8, 16]
  | 6 => [8, 16]
  | _ => []

/-- The header in the data of its chunk. -/
def Header.ofData? (data : Bytes) : Option Header := do
  let (width, rest) ← split? 4 data
  let (height, rest) ← split? 4 rest
  match rest with
  | [depth, colorType, compression, filter, interlace] =>
    if bigEndian width != 0 && bigEndian height != 0 && (bitDepths colorType).contains depth &&
        compression == 0 && filter == 0 && interlace ≤ 1 then
      some ⟨bigEndian width, bigEndian height, depth, colorType⟩
    else none
  | _ => none

/-- The number of samples of a pixel once palettes and transparency are carried out. -/
def Header.sampleCount (h : Header) (hasTransparency : Bool) : Nat :=
  let alpha := if hasTransparency then 1 else 0
  match h.colorType.toNat with
  | 0 => 1 + alpha
  | 2 => 3 + alpha
  | 3 => 3 + alpha
  | 4 => 2
  | _ => 4

/-- The bytes of a line of pixels; a sample has one byte, or two if it has 16 bits. -/
def Header.lineSize (h : Header) (hasTransparency : Bool) : Nat :=
  h.width * h.sampleCount hasTransparency * (if h.depth = 16 then 2 else 1)

/-- The most bytes that a line of pixels, and what is kept beside it, may take. -/
def memoryLimit : Nat := 512 * 1024 * 1024

/-! ### What matters before the picture -/

/-- The types of chunks between header and picture that have an effect. -/
inductive ChunkKind where
  | palette
  | transparency
  /-- The colour space by numbers. -/
  | colorSpace
  | background
  /-- The description of a frame. -/
  | frame
  /-- A colour profile, which is compressed. -/
  | profile
  /-- Metadata of a camera. -/
  | metadata
  /-- A text, which may be compressed. -/
  | text
deriving DecidableEq, Repr, Inhabited

namespace ChunkKind

def named : List (String × ChunkKind) :=
  [("PLTE", palette), ("tRNS", transparency), ("cICP", colorSpace), ("bKGD", background),
   ("fcTL", frame), ("iCCP", profile), ("eXIf", metadata), ("tEXt", text), ("zTXt", text),
   ("iTXt", text)]

def ofBytes? (bytes : Bytes) : Option ChunkKind :=
  (named.find? fun entry => ascii entry.1 == bytes).map Prod.snd

/-- The least and the greatest length of the data. -/
def lengths : ChunkKind → Nat × Option Nat
  | palette => (3, some (3 * 256))
  | transparency => (1, some 256)
  | colorSpace => (4, some 4)
  | background => (1, some 6)
  | frame => (26, some 26)
  | profile => (0, none)
  | metadata => (0, none)
  | text => (0, none)

def admitsLength (k : ChunkKind) (length : Nat) : Bool :=
  decide (k.lengths.1 ≤ length) && k.lengths.2.all fun most => decide (length ≤ most)

/-- Whether a wrong length makes the file unreadable. -/
def isVital (k : ChunkKind) : Bool :=
  k == palette || k == frame

end ChunkKind

/-- The bytes that a buffer for the data of chunks has room for in the beginning. -/
def firstRoom : Nat := 128

/-- What the chunks after the header have told, and the memory that they took. -/
structure Told where
  hasPalette : Bool := false
  hasTransparency : Bool := false
  hasColorSpace : Bool := false
  hasProfile : Bool := false
  /-- The number of frames that were described. -/
  frameCount : Nat := 0
  /-- The room in the buffer, which is doubled as often as a chunk needs it. -/
  room : Nat := firstRoom
  /-- The bytes of texts and of a colour profile, which are kept. -/
  kept : Nat := 0
deriving Repr, Inhabited

/-- The memory taken, the first room apart. -/
def Told.memory (t : Told) : Nat :=
  t.room - firstRoom + t.kept

/-- Room for the data of a chunk. -/
def Told.withRoom (t : Told) (length : Nat) : Told :=
  { t with room := max t.room length.nextPowerOfTwo }

/-- Whether data tell which pixels are transparent: a grey, a colour, or a value for each colour of
a palette that came before. -/
def Told.tellsTransparency (t : Told) (h : Header) (data : Bytes) : Bool :=
  match h.colorType.toNat with
  | 0 => 2 ≤ data.length
  | 2 => 6 ≤ data.length
  | 3 => t.hasPalette
  | _ => false

/-- Whether data are a colour space: primaries, transfer, no matrix, and whether the range is
full. -/
def isColorSpace (data : Bytes) : Bool :=
  (data.drop 2).head? == some 0 && (data.drop 3).all (· ≤ 1)

/-- Whether data describe the frame after `count` others: its number, its size and place, its
delay, and what happens to it after and below.  A frame before the picture is as large as the
picture. -/
def isFrame (h : Header) (count : Nat) (data : Bytes) : Bool :=
  let numbers := [count, h.width, h.height, 0, 0]
  (List.range 5).map (fun i => bigEndian ((data.drop (4 * i)).take 4)) == numbers &&
    match data.drop 24 with
    | [disposal, blending] => disposal ≤ 2 && blending ≤ 1
    | _ => false

/-- The size of a colour profile, which follows a name of 1 to 79 bytes, a zero, and a zero for
the only method of compression. -/
def profileSize? (data : Bytes) : Option Nat :=
  let name := data.takeWhile (· != 0)
  match data.dropWhile (· != 0) with
  | 0 :: 0 :: rest =>
    if 1 ≤ name.length && name.length ≤ 79 then (Deflate.inflate? rest).map Array.size else none
  | _ => none

/-- What is told after the data of an intact chunk, unless they make the file unreadable: a second
palette, a wrong colour space before the palette, the background of a palette that has not come,
and a wrong frame. -/
def Told.understand? (t : Told) (h : Header) (kind : ChunkKind) (data : Bytes) : Option Told :=
  match kind with
  | .palette => if t.hasPalette then none else some { t with hasPalette := true }
  | .transparency =>
    some { t with hasTransparency := t.hasTransparency || t.tellsTransparency h data }
  | .colorSpace =>
    if t.hasPalette || t.hasColorSpace then some t
    else if isColorSpace data then some { t with hasColorSpace := true }
    else none
  | .background => if h.colorType = 3 && !t.hasPalette then none else some t
  | .frame =>
    if isFrame h t.frameCount data then some { t with frameCount := t.frameCount + 1 } else none
  | .profile =>
    if t.hasProfile then some t
    else some { t with hasProfile := true, kept := t.kept + (profileSize? data).getD 0 }
  | .metadata => some t
  | .text => some { t with kept := t.kept + data.length }

/-- What is told after one more chunk, unless the chunk makes the file unreadable. -/
def Told.after? (t : Told) (h : Header) (c : Chunk) : Option Told :=
  match ChunkKind.ofBytes? c.kind with
  | none => if c.isCritical then none else some t
  | some kind =>
    if kind.admitsLength c.data.length then
      let t := t.withRoom c.data.length
      if c.isIntact then t.understand? h kind c.data
      else if c.isCritical then none
      else some t
    else if kind.isVital then none
    else some t

/-- What is told when the picture begins; `fuel` is the number of bytes. -/
def untilPicture? (h : Header) : Nat → Told → Bytes → Option Told
  | 0, _, _ => none
  | fuel + 1, t, bytes =>
    let kind := (bytes.drop 4).take 4
    if kind = pictureKind then some t
    else if kind = framePictureKind then none
    else do
      let (c, rest) ← chunk? bytes
      untilPicture? h fuel (← t.after? h c) rest

/-- The width and the height that a file tells, if it is one. -/
def size? (bytes : Bytes) : Option (Nat × Nat) := do
  let (c, rest) ← chunk? (bytes.drop signature.length)
  if c.kind = headerKind ∧ c.isIntact then
    let h ← Header.ofData? c.data
    let t ← untilPicture? h (rest.length + 1) {} rest
    if t.memory + h.lineSize t.hasTransparency ≤ memoryLimit then some (h.width, h.height)
    else none
  else none

end ScreenInspector.Image.Png
