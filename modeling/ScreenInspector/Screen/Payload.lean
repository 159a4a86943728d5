/-
  ScreenInspector/Screen/Payload.lean
  ===================================
  **Payloads**: JSON values that describe the tree of a screen.

  There are two formats.  A native payload has the properties of an element at the node itself
  and its box as `origin` and `size`; an inspector payload has them in the node's `metadata` and
  its box as `x`, `y`, `w` and `h`.  In both, `children` stands at the node.  The format of a
  payload is the inspector's iff its root has the field `metadata`.

  A node is refused for the first of these reasons that applies: it lies too deep, it is no object,
  it has no metadata, no reference or no type, `children` is no array, a child is refused, a number
  of its box is missing, it has neither box nor children.
-/
import ScreenInspector.Screen.Node
import ScreenInspector.Screen.Malformation
import ScreenInspector.Json.Printer

namespace ScreenInspector

/-- The text of a string, a boolean or a number. -/
def Json.scalar? : Json → Option String
  | .string s => some s
  | .bool b => some (if b then "true" else "false")
  | .whole n => some (toString n)
  | .real x => some (Json.renderReal x)
  | _ => none

/-- The text of a field that is a string, a boolean or a number. -/
def Json.scalarField? (v : Json) (name : String) : Option String :=
  (v.field? name).bind Json.scalar?

/-- The two formats of payloads. -/
inductive PayloadFormat where
  | native
  | inspector
deriving DecidableEq, Repr

namespace PayloadFormat

/-- The format of a payload. -/
def ofRoot (root : Json) : PayloadFormat :=
  if (root.field? "metadata").isSome then .inspector else .native

/-- The name of the reference. -/
def referenceField : PayloadFormat → String
  | .native => "ref"
  | .inspector => "reference"

/-- The value that holds the properties of an element. -/
def properties (format : PayloadFormat) (node : Json) : Except Malformation Json :=
  match format with
  | .native => .ok node
  | .inspector =>
    match node.field? "metadata" with
    | some (.object fields) => .ok (.object fields)
    | _ => .error .noMetadata

/-- Where the four numbers of a box stand inside it. -/
def rectPaths : PayloadFormat → (List String × List String) × (List String × List String)
  | .native => ((["origin", "x"], ["origin", "y"]), (["size", "width"], ["size", "height"]))
  | .inspector => ((["x"], ["y"]), (["w"], ["h"]))

end PayloadFormat

/-- A number of a box. -/
def rectNumber (reference : String) (rect : Json) (path : List String) :
    Except Malformation Float :=
  match (Json.path? path rect).bind Json.float? with
  | some x => .ok x
  | none => .error (.noRectField reference (path.getLast?.getD ""))

/-- The box of an element; a missing or null one is none. -/
def readRect (format : PayloadFormat) (reference : String) (properties : Json) :
    Except Malformation (Option Rect) :=
  match properties.field? "rect" with
  | none => .ok none
  | some .null => .ok none
  | some rect => do
    let ((px, py), (pw, ph)) := format.rectPaths
    let x ← rectNumber reference rect px
    let y ← rectNumber reference rect py
    let w ← rectNumber reference rect pw
    let h ← rectNumber reference rect ph
    pure (some ⟨x, y, w, h⟩)

/-- The names of the attributes that are kept, in the order of names. -/
def keptAttributes : List String :=
  ["id", "label", "name", "shown", "value"]

/-- The attributes of an element: those of the kept names that have a scalar value. -/
def readAttributes (properties : Json) : Fields String :=
  keptAttributes.filterMap fun name => (properties.scalarField? name).map fun v => (name, v)

/-- Counts beyond 32 bits stay at the largest of 32 bits. -/
def matchCountLimit : Nat := Nat.pow 2 32 - 1

/-- How the text of an element matched, if the field is an object. -/
def readLocalization (properties : Json) : Option Localization :=
  match properties.field? "l10n" with
  | some (.object fields) =>
    let v := Json.object fields
    let texts := match v.field? "translations" with
      | some (.object locales) =>
        Fields.ofPairs
          (locales.filterMap fun (locale, text) => text.string?.map fun t => (locale, t))
      | _ => []
    some
      { matchCount := min (((v.field? "matches").bind Json.nat?).getD 0) matchCountLimit
        key := (v.scalarField? "key").filter (· != "")
        textsByLocale := texts }
  | _ => none

/-- Reads items with a given reader; null items are left out. -/
def readItems (read : Json → Except Malformation Node) : List Json → Except Malformation (List Node)
  | [] => .ok []
  | .null :: rest => readItems read rest
  | item :: rest => do
    let n ← read item
    let ns ← readItems read rest
    pure (n :: ns)

/-- The children of a node; missing or null there are none. -/
def readChildren (read : Json → Except Malformation Node) (reference : String) (node : Json) :
    Except Malformation (List Node) :=
  match node.field? "children" with
  | none => .ok []
  | some .null => .ok []
  | some (.array items) => readItems read items
  | some _ => .error (.childrenNotArray reference)

/-- A node whose children are read with a given reader. -/
def readNodeWith (read : Json → Except Malformation Node) (format : PayloadFormat) (node : Json) :
    Except Malformation Node :=
  if !node.isObject then .error .nodeNotObject
  else do
    let properties ← format.properties node
    match properties.scalarField? format.referenceField with
    | none => .error .noReference
    | some reference =>
      match properties.scalarField? "type" with
      | none => .error (.noKind reference)
      | some kind => do
        let children ← readChildren read reference node
        let rect ← readRect format reference properties
        if rect.isNone && children.isEmpty then .error (.noGeometry reference)
        else
          pure (.node
            { reference := reference
              kind := kind
              rect := rect
              attributes := readAttributes properties
              localization := readLocalization properties
              markup := (properties.scalarField? "source").filter (· != "") }
            children)

/-- A node with at most so many levels, its own included. -/
def readNode (format : PayloadFormat) : Nat → Json → Except Malformation Node
  | 0, _ => .error .tooDeep
  | levels + 1, node => readNodeWith (readNode format levels) format node

end ScreenInspector
