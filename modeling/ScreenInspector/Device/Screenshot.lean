/-
  ScreenInspector/Device/Screenshot.lean
  ======================================
  **Pictures of a screen** with their natural size, and their text in base 64.
-/

namespace ScreenInspector

/-- A picture: the bytes of an image file, which may be missing, and the size of the screen. -/
structure Screenshot where
  bytes : List UInt8
  width : Nat
  height : Nat
deriving DecidableEq, Repr, Inhabited

namespace Base64

/-- The character for a number below 64: upper case, lower case, digits, plus and slash. -/
def digit (n : Nat) : Char :=
  if n < 26 then Char.ofNat ('A'.toNat + n)
  else if n < 52 then Char.ofNat ('a'.toNat + (n - 26))
  else if n < 62 then Char.ofNat ('0'.toNat + (n - 52))
  else if n = 62 then '+'
  else '/'

/-- Four characters for three bytes; equals signs fill up the last four. -/
def encode : List UInt8 → List Char
  | [] => []
  | [a] =>
    let n := a.toNat * 16
    [digit (n / 64), digit (n % 64), '=', '=']
  | [a, b] =>
    let n := (a.toNat * 256 + b.toNat) * 4
    [digit (n / 4096), digit (n / 64 % 64), digit (n % 64), '=']
  | a :: b :: c :: rest =>
    let n := (a.toNat * 256 + b.toNat) * 256 + c.toNat
    digit (n / 262144) :: digit (n / 4096 % 64) :: digit (n / 64 % 64) :: digit (n % 64) ::
      encode rest

end Base64

namespace Screenshot

/-- The number of bytes of the image. -/
def byteCount (s : Screenshot) : Nat :=
  s.bytes.length

/-- Whether the size can be compared with that of a shown picture. -/
def hasSize (s : Screenshot) : Bool :=
  s.width != 0 && s.height != 0

/-- The image as an address that holds all its data. -/
def dataAddress (s : Screenshot) : String :=
  "data:image/png;base64," ++ String.ofList (Base64.encode s.bytes)

end Screenshot

end ScreenInspector
