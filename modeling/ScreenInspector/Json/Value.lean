/-
  ScreenInspector/Json/Value.lean
  ===============================
  **JSON values**, with the look-ups that the readers of payloads and steps need.

  A number is either whole, and then exact within 64 bits, or a double.  An object is a list of
  fields; a look-up takes the first field of a name.  The fields of a value that was read from
  text stand in the order of their names, and no name comes twice.
-/
import ScreenInspector.Number.Binary64
import ScreenInspector.Text.Fields

namespace ScreenInspector

/-- A JSON value. -/
inductive Json where
  | null
  | bool (value : Bool)
  | whole (value : Int)
  | real (value : Float)
  | string (value : String)
  | array (items : List Json)
  | object (fields : List (String × Json))
deriving Inhabited

namespace Json

/-- The first field of a name; only objects have fields. -/
def field? (name : String) : Json → Option Json
  | .object fields => fields.lookup name
  | _ => none

/-- The field at the end of a path of names. -/
def path? : List String → Json → Option Json
  | [], v => some v
  | name :: rest, v => (v.field? name).bind (path? rest)

/-- The object of some fields; of two fields with one name the later counts. -/
def ofPairs (pairs : List (String × Json)) : Json :=
  .object (Fields.ofPairs pairs)

/-- The value written for what may be absent: `null` stands for nothing. -/
def ofOption {α : Type} (write : α → Json) : Option α → Json
  | some a => write a
  | none => .null

/-- The object of named texts. -/
def ofTexts (texts : Fields String) : Json :=
  .object (texts.map fun (name, text) => (name, .string text))

def isObject : Json → Bool
  | .object _ => true
  | _ => false

def isNull : Json → Bool
  | .null => true
  | _ => false

/-- The text of a string value. -/
def string? : Json → Option String
  | .string s => some s
  | _ => none

def bool? : Json → Option Bool
  | .bool b => some b
  | _ => none

def items? : Json → Option (List Json)
  | .array items => some items
  | _ => none

/-- The double nearest to a number. -/
def float? : Json → Option Float
  | .whole n => some (Number.ofInt n)
  | .real x => some x
  | _ => none

/-- A whole number from zero on. -/
def nat? : Json → Option Nat
  | .whole n => if 0 ≤ n then some n.toNat else none
  | _ => none

end Json

end ScreenInspector
