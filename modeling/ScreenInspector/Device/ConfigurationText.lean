/-
  ScreenInspector/Device/ConfigurationText.lean
  =============================================
  **Configurations as YAML text.**

  A configuration is a mapping of fields, and its device is one inside it.  A field that is missing
  has its usual value, one of another name is passed over, and none may come twice.  An empty text
  is a configuration in which everything is usual.
-/
import ScreenInspector.Device.Configuration
import ScreenInspector.Yaml.Node
import ScreenInspector.Yaml.Printer

namespace ScreenInspector

open ScreenInspector.Yaml (Document)

/-! ### Values of fields -/

/-- Whether a scalar may mean more than its text: it is plain, or a literal block with a tag that
says so. -/
def isMeaningful (style : Yaml.ScalarStyle) (tag : Option String) (wanted : String) : Bool :=
  style == .plain || (style == .literal && tag == some ("tag:yaml.org,2002:" ++ wanted))

/-- A truth value. -/
def switchOf : Yaml.Node → Except Yaml.Fault Bool
  | .scalar text style tag =>
    match Yaml.truthValue? text.toList with
    | some b => if isMeaningful style tag "bool" then .ok b else .error (.wrongKind "a boolean")
    | none => .error (.wrongKind "a boolean")
  | _ => .error (.wrongKind "a boolean")

/-- A number of milliseconds, which fits 64 bits. -/
def millisecondsOf : Yaml.Node → Except Yaml.Fault Nat
  | .scalar text style tag =>
    match Yaml.natural? text.toList with
    | some n =>
      if isMeaningful style tag "int" && decide (n < Nat.pow 2 64) then .ok n
      else .error (.wrongKind "a number")
    | none => .error (.wrongKind "a number")
  | _ => .error (.wrongKind "a number")

/-- Any scalar is a text. -/
def textOf : Yaml.Node → Except Yaml.Fault String
  | .scalar text _ _ => .ok text
  | _ => .error (.wrongKind "a text")

/-- The entries of a mapping; a missing value has none. -/
def entriesOf (n : Yaml.Node) : Except Yaml.Fault (List (Yaml.Node × Yaml.Node)) :=
  match n with
  | .mapping entries => .ok entries
  | .scalar "" .plain _ => .ok []
  | _ => .error (.wrongKind "a mapping")

/-! ### Reading -/

/-- Reads entries one by one into a value; `set` says what a known field does, and `seen` are the
known names before. -/
def readFields {α : Type} (d : Document)
    (set : α → String → Yaml.Node → Option (Except Yaml.Fault α)) :
    (seen : List String) → α → List (Yaml.Node × Yaml.Node) → Except Yaml.Fault α
  | _, a, [] => .ok a
  | seen, a, (key, value) :: rest => do
    let name ← textOf (d.resolve key)
    match set a name (d.resolve value) with
    | none => readFields d set seen a rest
    | some result =>
      if seen.contains name then .error (.repeatedField name)
      else
        let a ← result
        readFields d set (name :: seen) a rest

def DeviceSettings.set (s : DeviceSettings) (name : String) (value : Yaml.Node) :
    Option (Except Yaml.Fault DeviceSettings) :=
  match name with
  | "base_url" => some ((textOf value).map fun v => { s with baseUrl := v })
  | "session_id" => some ((textOf value).map fun v => { s with sessionId := v })
  | "timeout_ms" => some ((millisecondsOf value).map fun v => { s with timeout := v })
  | _ => none

def DeviceSettings.ofNode (d : Document) (n : Yaml.Node) : Except Yaml.Fault DeviceSettings := do
  readFields d DeviceSettings.set [] {} (← entriesOf n)

def Configuration.set (d : Document) (c : Configuration) (name : String) (value : Yaml.Node) :
    Option (Except Yaml.Fault Configuration) :=
  match name with
  | "record" => some ((switchOf value).map fun v => { c with record := v })
  | "settle_delay_ms" => some ((millisecondsOf value).map fun v => { c with settleDelay := v })
  | "web_view_kind" => some ((textOf value).map fun v => { c with webViewKind := v })
  | "device" => some ((DeviceSettings.ofNode d value).map fun v => { c with device := v })
  | _ => none

namespace Configuration

/-- The configuration that a document describes. -/
def ofDocument (d : Document) : Except Yaml.Fault Configuration := do
  readFields d (Configuration.set d) [] {} (← entriesOf (d.root.getD .empty))

/-- The valid configuration that a text describes. -/
def ofText (text : String) : Except ConfigurationFault Configuration := do
  let c ← ((Document.read text).bind ofDocument).mapError .notYaml
  c.validate
  pure c

/-- The valid configuration that the text of a file describes. -/
def ofFile (path text : String) : Except ConfigurationFault Configuration :=
  (ofText text).mapError (.inFile path)

/-! ### Writing -/

/-- A field on a line of its own, or on several. -/
def textField (indent : Nat) (name value : String) : String :=
  String.ofList (List.replicate indent ' ') ++ name ++ ": " ++ Yaml.textLine (indent + 2) value

/-- The text of a configuration, with all its fields. -/
def text (c : Configuration) : String :=
  "record: " ++ (if c.record then "true" else "false") ++ "\n" ++
    "settle_delay_ms: " ++ toString c.settleDelay ++ "\n" ++
    textField 0 "web_view_kind" c.webViewKind ++
    "device:\n" ++
    textField 2 "base_url" c.device.baseUrl ++
    textField 2 "session_id" c.device.sessionId ++
    "  timeout_ms: " ++ toString c.device.timeout ++ "\n"

end Configuration

end ScreenInspector
