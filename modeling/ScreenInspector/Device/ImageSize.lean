/-
  ScreenInspector/Device/ImageSize.lean
  =====================================
  **Screenshots of image files**, in the two formats in which devices send pictures.

  The first bytes of a file decide its format.  Of the picture only the size is read.
-/
import ScreenInspector.Device.Screenshot
import ScreenInspector.Image.Jpeg
import ScreenInspector.Image.Png
import ScreenInspector.InspectionError

namespace ScreenInspector

/-- The width and the height that an image file tells. -/
def Image.size? (bytes : Image.Bytes) : Option (Nat × Nat) :=
  if Image.Png.signature.isPrefixOf bytes then Image.Png.size? bytes
  else if [0xFF, 0xD8, 0xFF].isPrefixOf bytes then Image.Jpeg.size? bytes
  else none

/-- The screenshot of an image file. -/
def Screenshot.ofImage (bytes : List UInt8) : Except InspectionError Screenshot :=
  match Image.size? bytes with
  | some (width, height) => .ok ⟨bytes, width, height⟩
  | none => .error (.channel "screenshot is not an image: no size found")

end ScreenInspector
