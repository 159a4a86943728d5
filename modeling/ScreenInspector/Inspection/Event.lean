/-
  ScreenInspector/Inspection/Event.lean
  =====================================
  **What an operator does**, and the written form of it.

  An event is written as an object with one field, whose name says what happened.  Pointer events
  name points of the shown picture, not of the device.
-/
import ScreenInspector.Recording.Step
import ScreenInspector.Text.CharClass

namespace ScreenInspector

inductive KeyCommand where
  | toggleLock
  | toggleSearch
deriving DecidableEq, Repr, Inhabited

inductive Event where
  | pointerMove (shown : Point)
  | pointerClick (shown : Point)
  /-- The pointer is over a line of the tree view. -/
  | treeHover (reference : String)
  | key (command : KeyCommand)
  | locatorInput (expression : String)
  | refresh
deriving Inhabited

namespace KeyCommand

/-- The command of a key: the control key, or any key with it, is for the lock; escape is for the
search. -/
def ofKey? (key : String) (withControl : Bool) : Option KeyCommand :=
  let name := Text.lowerAscii key
  if withControl || name == "control" || name == "ctrl" then some .toggleLock
  else if name == "escape" || name == "esc" then some .toggleSearch
  else none

def word : KeyCommand → String
  | .toggleLock => "ToggleLock"
  | .toggleSearch => "ToggleLocatorSearch"

def ofWord? (word : String) : Option KeyCommand :=
  if word = KeyCommand.toggleLock.word then some .toggleLock
  else if word = KeyCommand.toggleSearch.word then some .toggleSearch
  else none

/-- A command is written as its word, or as an object that has nothing under its word. -/
def ofJson? : Json → Option KeyCommand
  | .string word => ofWord? word
  | .object [(word, .null)] => ofWord? word
  | _ => none

end KeyCommand

namespace Event

/-- A point that is written as an object. -/
def pointField? (v : Json) : Option Point :=
  if v.isObject then Point.ofJson? v else none

/-- The event of a field. -/
def ofField? (name : String) (value : Json) : Option Event :=
  match name with
  | "PointerMove" => (pointField? value).map .pointerMove
  | "PointerClick" => (pointField? value).map .pointerClick
  | "TreeHover" => ((value.field? "reference").bind Json.string?).map .treeHover
  | "Key" => (KeyCommand.ofJson? value).map .key
  | "LocatorInput" => value.string?.map .locatorInput
  | "Refresh" => if value.isNull then some .refresh else none
  | _ => none

def ofJson? : Json → Option Event
  | .string "Refresh" => some .refresh
  | .object [(name, value)] => ofField? name value
  | _ => none

def toJson : Event → Json
  | .pointerMove p => .object [("PointerMove", p.toJson)]
  | .pointerClick p => .object [("PointerClick", p.toJson)]
  | .treeHover reference => .object [("TreeHover", .object [("reference", .string reference)])]
  | .key command => .object [("Key", .string command.word)]
  | .locatorInput expression => .object [("LocatorInput", .string expression)]
  | .refresh => .string "Refresh"

end Event

end ScreenInspector
