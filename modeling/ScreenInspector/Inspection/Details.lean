/-
  ScreenInspector/Inspection/Details.lean
  =======================================
  **What a details panel says about an element**, with an expression that selects it alone if there
  is one.
-/
import ScreenInspector.Json.Value
import ScreenInspector.Locator.Synthesis

namespace ScreenInspector

structure Details where
  reference : String
  kind : String
  title : String
  rect : Option Rect
  attributes : Fields String
  localization : Option Localization
  locator : Option String
deriving Inhabited

namespace Details

/-- The details of an element with a locator. -/
def ofElement (e : Element) (locator : Option String) : Details :=
  { reference := e.reference, kind := e.kind, title := e.title, rect := e.rect,
    attributes := e.attributes, localization := e.localization, locator := locator }

/-- The details of an element, whose locator an evaluator confirms, and the questions asked. -/
def describe (v : Evaluator) (asked : Questions) (e : Element) : Details × Questions :=
  let (found, asked) := Locator.synthesize v asked e
  (ofElement e (found.toOption.map Locator.expression), asked)

end Details

/-! ### Written form -/

def Point.toJson (p : Point) : Json :=
  .object [("x", .real p.x), ("y", .real p.y)]

def Rect.toJson (r : Rect) : Json :=
  .object [("x", .real r.x), ("y", .real r.y), ("width", .real r.width), ("height", .real r.height)]

def Localization.toJson (l : Localization) : Json :=
  .object
    [("match_count", .whole l.matchCount),
     ("key", Json.ofOption Json.string l.key),
     ("translations_by_locale", Json.ofTexts l.textsByLocale)]

def Node.OutlineLine.toJson (l : Node.OutlineLine) : Json :=
  .object
    [("depth", .whole l.depth), ("reference", .string l.reference), ("title", .string l.title)]

def Details.toJson (d : Details) : Json :=
  .object
    [("reference", .string d.reference),
     ("kind", .string d.kind),
     ("title", .string d.title),
     ("rect", Json.ofOption Rect.toJson d.rect),
     ("attributes", Json.ofTexts d.attributes),
     ("localization", Json.ofOption Localization.toJson d.localization),
     ("locator", Json.ofOption Json.string d.locator)]

end ScreenInspector
