/-
  ScreenInspector/Recording/Script.lean
  =====================================
  **Scripts**: recorded steps as client code that repeats them.

  A step becomes two lines: one that finds the element by the locator, which stands there as a
  literal between double quotes, and one that clicks it.
-/
import ScreenInspector.Recording.Step
import ScreenInspector.Text.CharClass

namespace ScreenInspector

/-- The language of a script. -/
inductive ScriptFlavor where
  | java
  | python
deriving DecidableEq, Repr, Inhabited

namespace ScriptFlavor

def word : ScriptFlavor → String
  | .java => "java"
  | .python => "python"

/-- The language of a name, in upper or lower case; the fault shows the name in lower case. -/
def ofText (name : String) : Except String ScriptFlavor :=
  match Text.lowerAscii name with
  | "java" => .ok .java
  | "python" => .ok .python
  | "py" => .ok .python
  | other => .error ("unknown script flavor: " ++ other)

end ScriptFlavor

/-! ### Steps as code -/

/-- A backslash goes before backslashes and double quotes. -/
def escapedLiteral (cs : List Char) : List Char :=
  cs.flatMap fun c => if c = '\\' ∨ c = '\x22' then ['\\', c] else [c]

/-- The text between double quotes. -/
def codeLiteral (s : String) : String :=
  String.ofList ('\x22' :: (escapedLiteral s.toList ++ ['\x22']))

/-- The code of a step. -/
def RecordedStep.code (flavor : ScriptFlavor) (s : RecordedStep) : String :=
  let name := "element" ++ toString s.index
  match flavor, s.action with
  | .java, .click =>
    "WebElement " ++ name ++ " = driver.findElement(By.xpath(" ++ codeLiteral s.locator ++
      "));\n" ++ name ++ ".click();\n"
  | .python, .click =>
    name ++ " = driver.find_element_by_xpath(" ++ codeLiteral s.locator ++ ")\n" ++
      name ++ ".click()\n"

/-- The code of all steps. -/
def scriptOf (flavor : ScriptFlavor) (steps : List RecordedStep) : String :=
  String.join (steps.map (RecordedStep.code flavor))

end ScreenInspector
