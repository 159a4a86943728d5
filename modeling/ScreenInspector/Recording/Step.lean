/-
  ScreenInspector/Recording/Step.lean
  ===================================
  **Recorded steps** and their written form.

  A step may be written as an object, whose fields stand in any order among others, or as the array
  of its values in their order; so may a point.
-/
import ScreenInspector.Inspection.Details

namespace ScreenInspector

/-- What a step does with the element that its locator selects. -/
inductive StepAction where
  | click
deriving DecidableEq, Repr, Inhabited

/-- A step of a recording. -/
structure RecordedStep where
  /-- The position in the recording, counted from 1. -/
  index : Nat
  locator : String
  action : StepAction
  /-- The point of the device that was clicked. -/
  point : Point
deriving Inhabited

namespace StepAction

def word : StepAction → String
  | .click => "click"

/-- An action is written as its word, or as an object that has nothing under its word. -/
def ofJson? : Json → Option StepAction
  | .string s => if s = word .click then some .click else none
  | .object [(name, .null)] => if name = word .click then some .click else none
  | _ => none

end StepAction

def Point.ofJson? : Json → Option Point
  | .array [x, y] => do
    pure ⟨← x.float?, ← y.float?⟩
  | .object fields => do
    pure ⟨← (← fields.lookup "x").float?, ← (← fields.lookup "y").float?⟩
  | _ => none

namespace RecordedStep

/-- The largest index that a written step may have. -/
def indexLimit : Nat := Nat.pow 2 64 - 1

def ofParts? (index locator action point : Json) : Option RecordedStep := do
  let index ← index.nat?
  let locator ← locator.string?
  let action ← StepAction.ofJson? action
  let point ← Point.ofJson? point
  if index ≤ indexLimit then some ⟨index, locator, action, point⟩ else none

def ofJson? : Json → Option RecordedStep
  | .array [index, locator, action, point] => ofParts? index locator action point
  | .object fields => do
    ofParts? (← fields.lookup "index") (← fields.lookup "locator") (← fields.lookup "action")
      (← fields.lookup "point")
  | _ => none

/-- The steps written in an array. -/
def listOfJson? (v : Json) : Option (List RecordedStep) :=
  v.items?.bind fun items => items.mapM ofJson?

def toJson (s : RecordedStep) : Json :=
  .object
    [("index", .whole s.index), ("locator", .string s.locator),
     ("action", .string s.action.word), ("point", s.point.toJson)]

end RecordedStep

end ScreenInspector
