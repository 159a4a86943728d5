/-
  ScreenInspector/CommandLine/Coordinates.lean
  ============================================
  **Coordinates as they are typed**: `X,Y` as an argument of a command, `X Y` or `X,Y` as the rest
  of a line of a session.  Faults are told in words that show the text in question.
-/
import ScreenInspector.Number.Reading
import ScreenInspector.Screen.Geometry
import ScreenInspector.Text.Quoted

namespace ScreenInspector.CommandLine

/-- The number that a text writes, blanks around it apart. -/
def finiteNumber (part : List Char) : Except String Float :=
  match Number.ofText? (Text.trimChars part) with
  | none => .error (Text.quoted (String.ofList part) ++ " is not a number")
  | some x =>
    if Number.isFinite x then .ok x
    else .error (Text.quoted (String.ofList part) ++ " is not finite")

/-- Two finite numbers around the first comma. -/
def pairOfText (text : String) : Except String Point :=
  let cs := text.toList
  match cs.dropWhile (· != ',') with
  | [] => .error ("expected X,Y, got " ++ Text.quoted text)
  | _ :: second => do
    let x ← finiteNumber (cs.takeWhile (· != ','))
    let y ← finiteNumber second
    pure ⟨x, y⟩

/-- A number of any kind. -/
def anyNumber (part : List Char) : Except String Float :=
  match Number.ofText? part with
  | none => .error (Text.quoted (String.ofList part) ++ " is not a number")
  | some x => .ok x

/-- Two numbers of any kind, separated by blanks or commas. -/
def coordinates (cs : List Char) : Except String Point :=
  match Text.words (cs.map fun c => if c = ',' then ' ' else c) with
  | [x, y] => do
    let x ← anyNumber x
    let y ← anyNumber y
    pure ⟨x, y⟩
  | _ => .error ("expected X Y, got " ++ Text.quoted (String.ofList cs))

end ScreenInspector.CommandLine
