/-
  ScreenInspector/CommandLine/Invocation.lean
  ===========================================
  **Invocations**: the settings and the command that arguments stand for.

  Some options may stand before the command word or after it; if one of them stands in both places,
  what stands after the word counts.
-/
import ScreenInspector.CommandLine.Arguments
import ScreenInspector.CommandLine.Settings
import ScreenInspector.Screen.Tree

namespace ScreenInspector.CommandLine

inductive OutputFormat where
  | text
  | json
deriving DecidableEq, Repr, Inhabited

/-- How a recording is told: as code or as JSON. -/
inductive ScriptFormat where
  | java
  | python
  | json
deriving DecidableEq, Repr, Inhabited

/-- The file of a snapshot, and the kind of its web views. -/
structure SnapshotInput where
  path : String
  webViewKind : String
deriving DecidableEq, Repr, Inhabited

/-- The element to be located. -/
inductive Target where
  | reference (reference : String)
  | shownPoint (point : Point)
deriving Inhabited

/-- The options of a live session. -/
structure LiveOptions where
  path : Option String
  baseUrl : Option String
  session : Option String
  record : Bool
  shownSize : Option Point
deriving Inhabited

inductive Command where
  | tree (input : SnapshotInput) (format : OutputFormat) (withSource : Bool)
  | resolve (input : SnapshotInput) (format : OutputFormat) (shown : Point) (ratio : Float)
  | locate (input : SnapshotInput) (format : OutputFormat) (target : Target) (ratio : Float)
  | query (input : SnapshotInput) (format : OutputFormat) (expression : String)
  | record (input : SnapshotInput) (format : ScriptFormat) (clicks : List Point) (ratio : Float)
  | live (options : LiveOptions)
  | configuration (path : Option String)
deriving Inhabited

structure Invocation where
  settings : Settings
  command : Command
deriving Inhabited

/-! ### What the commands take -/

namespace Rules

/-- The options that every command takes. -/
def shared : List OptionRule :=
  [{ name := "verbose", short := some 'v', action := .count },
   { name := "quiet", short := some 'q', action := .switch },
   { name := "color", action := .value (.choice ["auto", "always", "never"]) false false },
   { name := "log-json", action := .switch },
   { name := "help", short := some 'h', action := .help },
   { name := "version", short := some 'V', action := .version }]

/-- An option with a value that is given at most once. -/
def single (name : String) (kind : ValueKind) : OptionRule :=
  { name := name, action := .value kind false false }

/-- A number that may be negative. -/
def signed (name : String) : OptionRule :=
  { name := name, action := .value .number false true }

def format (words : List String) : OptionRule :=
  { name := "format", short := some 'f', action := .value (.choice words) false false }

def snapshot : String × ValueKind := ("snapshot", .path)

/-- The options of the commands that show something of a snapshot. -/
def snapshotOptions : List OptionRule :=
  [single "web-view-kind" .text, format ["text", "json"]]

def tree : ArgumentRules :=
  { options := snapshotOptions ++ [{ name := "xml", action := .switch }] ++ shared
    positionals := [snapshot] }

def resolve : ArgumentRules :=
  { options := snapshotOptions ++ [signed "x", signed "y", single "scale" .number] ++ shared
    positionals := [snapshot] }

def locate : ArgumentRules :=
  { options := snapshotOptions ++
      [single "reference" .text, signed "x", signed "y", single "scale" .number] ++ shared
    positionals := [snapshot] }

def query : ArgumentRules :=
  { options := snapshotOptions ++ shared
    positionals := [snapshot, ("expression", .text)] }

def record : ArgumentRules :=
  { options :=
      [single "web-view-kind" .text, { name := "click", action := .value .pair true false },
       format ["java", "python", "json"], single "scale" .number] ++ shared
    positionals := [snapshot] }

def live : ArgumentRules :=
  { options :=
      [{ name := "config", short := some 'c', action := .value .path false false },
       single "base-url" .text, single "session" .text, { name := "record", action := .switch },
       single "rendered" .pair] ++ shared }

def configuration : ArgumentRules :=
  { options := single "path" .path :: shared }

/-- The words of the commands, one of which explains the others. -/
def commandWords : List String :=
  ["tree", "resolve", "locate", "query", "record", "live", "config", "help"]

/-- What stands before the command word. -/
def root : ArgumentRules :=
  { options := shared, commands := commandWords }

end Rules

/-! ### From arguments to commands -/

namespace Given

variable (g : Given)

def text (name : String) : String :=
  (value? g name).getD ""

/-- The number given for an option, or else another. -/
def number (name : String) (other : Float) : Float :=
  ((value? g name).bind fun v => Number.ofText? v.toList).getD other

def pairs (name : String) : List Point :=
  (values g name).filterMap fun v => (pairOfText v).toOption

def input : SnapshotInput :=
  { path := text g "snapshot", webViewKind := (value? g "web-view-kind").getD Tree.webViewKind }

def outputFormat : OutputFormat :=
  if value? g "format" == some "json" then .json else .text

def scriptFormat : ScriptFormat :=
  match value? g "format" with
  | some "python" => .python
  | some "json" => .json
  | _ => .java

def point : Point :=
  ⟨number g "x" 0.0, number g "y" 0.0⟩

def target : Target :=
  match value? g "reference" with
  | some reference => .reference reference
  | none => .shownPoint (point g)

/-- Complains about the first of the names that was not given. -/
def require : List String → Except UsageFault Unit
  | [] => .ok ()
  | name :: rest => if has g name then require rest else .error (.missingArgument name)

/-- The element is given by its reference, or else by both numbers of a point. -/
def requireTarget : Except UsageFault Unit :=
  if has g "reference" then
    if has g "x" || has g "y" then .error (.conflict "reference") else .ok ()
  else require g ["x", "y"]

end Given

open Given in
/-- The command of a word and its arguments. -/
def Command.ofGiven (word : String) (g : Given) : Except UsageFault Command := do
  match word with
  | "tree" =>
    require g ["snapshot"]
    pure (.tree (input g) (outputFormat g) (has g "xml"))
  | "resolve" =>
    require g ["snapshot", "x", "y"]
    pure (.resolve (input g) (outputFormat g) (point g) (number g "scale" 1.0))
  | "locate" =>
    requireTarget g
    require g ["snapshot"]
    pure (.locate (input g) (outputFormat g) (target g) (number g "scale" 1.0))
  | "query" =>
    require g ["snapshot", "expression"]
    pure (.query (input g) (outputFormat g) (text g "expression"))
  | "record" =>
    require g ["snapshot", "click"]
    pure (.record (input g) (scriptFormat g) (pairs g "click") (number g "scale" 1.0))
  | "live" =>
    pure (.live
      { path := value? g "config", baseUrl := value? g "base-url", session := value? g "session",
        record := has g "record", shownSize := (pairs g "rendered").head? })
  | _ => pure (.configuration (value? g "path"))

/-- What the command of a word takes. -/
def Rules.ofCommand : String → ArgumentRules
  | "tree" => Rules.tree
  | "resolve" => Rules.resolve
  | "locate" => Rules.locate
  | "query" => Rules.query
  | "record" => Rules.record
  | "live" => Rules.live
  | _ => Rules.configuration

/-- The settings in what was given before the command word and after it. -/
def Settings.ofGiven (before after : Given) : Settings :=
  let isQuiet := Given.has before "quiet" || Given.has after "quiet"
  let count := Given.count (if Given.has after "verbose" then after else before) "verbose"
  let color :=
    match (Given.value? after "color").or (Given.value? before "color") with
    | some "always" => .always
    | some "never" => .never
    | _ => .automatic
  { verbosity := Verbosity.ofFlags isQuiet count, color := color,
    logsJson := Given.has before "log-json" || Given.has after "log-json" }

/-- What a request for help comes to: it may name one command. -/
def helpFault : List String → UsageFault
  | [] => .help
  | [word] => if Rules.commandWords.contains word then .help else .unknownCommand word
  | first :: second :: _ =>
    .unknownCommand (if Rules.commandWords.contains first then second else first)

/-- The invocation that arguments stand for. -/
def Invocation.ofArguments (arguments : List String) : Except UsageFault Invocation := do
  let (before, found) ← Arguments.read Rules.root {} arguments
  match found with
  | none =>
    let before ← before.settle
    .error (if before.given.isEmpty then .helpForMissing else .missingCommand)
  | some ("help", rest) => .error (helpFault rest)
  | some (word, rest) =>
    let (after, _) ← Arguments.read (Rules.ofCommand word) {} rest
    let after ← after.settle
    let command ← Command.ofGiven word after.given
    let before ← before.settle
    pure ⟨Settings.ofGiven before.given after.given, command⟩

end ScreenInspector.CommandLine
