/-
  ScreenInspector/Screen/Geometry.lean
  ====================================
  **Points, boxes and the scale between a device and its picture.**

  A device reports boxes in its own pixels; the picture of its screen may be shown smaller or
  larger.  A `Scale` is the factor from device pixels to shown pixels.
-/
import ScreenInspector.Number.Shortest

namespace ScreenInspector

/-- A position on the screen. -/
structure Point where
  x : Float
  y : Float
deriving Inhabited

/-- Two numbers in parentheses. -/
def Point.text (p : Point) : String :=
  "(" ++ Number.plainText p.x ++ ", " ++ Number.plainText p.y ++ ")"

/-- A box by its upper left corner and its extent. -/
structure Rect where
  x : Float
  y : Float
  width : Float
  height : Float
deriving Inhabited

namespace Rect

def area (r : Rect) : Float :=
  r.width * r.height

/-- A point lies in a box if it is on no side beyond an edge; the edges belong to the box. -/
def contains (r : Rect) (p : Point) : Bool :=
  decide (r.x ≤ p.x) && decide (p.x ≤ r.x + r.width) &&
    decide (r.y ≤ p.y) && decide (p.y ≤ r.y + r.height)

/-- All four numbers times a factor. -/
def scaled (r : Rect) (factor : Float) : Rect :=
  ⟨r.x * factor, r.y * factor, r.width * factor, r.height * factor⟩

end Rect

/-- The factor from device pixels to shown pixels. -/
structure Scale where
  factor : Float
deriving Inhabited

namespace Scale

def identity : Scale := ⟨1.0⟩

/-- A factor can be used if it is finite and positive. -/
def isUsable (factor : Float) : Bool :=
  Number.isFinite factor && decide (0.0 < factor)

/-- The scale at which a picture of the natural width is shown with the given one; the identity
if their quotient cannot be used. -/
def ofWidths (shown natural : Float) : Scale :=
  let factor := shown / natural
  if isUsable factor then ⟨factor⟩ else identity

/-- The device point shown at a point of the picture. -/
def toDevice (s : Scale) (p : Point) : Point :=
  ⟨p.x / s.factor, p.y / s.factor⟩

/-- The box of the picture that shows a device box. -/
def toShown (s : Scale) (r : Rect) : Rect :=
  r.scaled s.factor

end Scale

end ScreenInspector
