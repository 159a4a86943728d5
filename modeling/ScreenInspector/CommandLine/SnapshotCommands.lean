/-
  ScreenInspector/CommandLine/SnapshotCommands.lean
  =================================================
  **Commands on the snapshot in a file.**

  Each of them gets the text of the file, or why it could not be read, and yields what is written to
  the standard output.  A file that cannot be used is complained about before anything else.
-/
import ScreenInspector.CommandLine.CommandError
import ScreenInspector.CommandLine.Invocation
import ScreenInspector.CommandLine.Output
import ScreenInspector.Json.Printer
import ScreenInspector.Recording.Script

namespace ScreenInspector.CommandLine

/-- The text of a file. -/
abbrev FileText := Except FileFault String

/-- What a command writes. -/
abbrev Outcome := Except CommandError String

/-- The tree of the snapshot in a file. -/
def SnapshotInput.load (input : SnapshotInput) (file : FileText) : Except CommandError Tree :=
  match file with
  | .error fault => .error (.unreadableSnapshot input.path fault)
  | .ok text => (Tree.ofText text input.webViewKind).mapError (.malformedSnapshot input.path)

/-- The scale of a ratio of shown to natural width. -/
def scaleOfRatio (ratio : Float) : Except CommandError Scale :=
  if Scale.isUsable ratio then .ok (Scale.ofWidths ratio 1.0) else .error (.badRatio ratio)

/-- The node under a point of the device. -/
def nodeUnder (t : Tree) (p : Point) : Except CommandError Node :=
  match t.nodeAt? p with
  | some n => .ok n
  | none => .error (.inspection (.noElementAt p))

/-- A value over several lines. -/
def jsonLines (v : Json) : String :=
  Output.line v.pretty

namespace Output

variable (o : Output)

/-- The outline of a snapshot, with its source text if wanted. -/
def showTree (input : SnapshotInput) (format : OutputFormat) (withSource : Bool)
    (file : FileText) : Outcome := do
  let t ← input.load file
  match format with
  | .text =>
    let webView :=
      match t.webView? with
      | some n => line ("web view: " ++ o.accent n.reference)
      | none => ""
    pure (o.outline t.outline ++ webView ++ if withSource then line t.source else "")
  | .json =>
    pure (jsonLines (.object
      [("nodes", .array (t.outline.map Node.OutlineLine.toJson)),
       ("web_view", Json.ofOption (fun n => .string (Node.reference n)) t.webView?),
       ("xml", if withSource then .string t.source else .null)]))

/-- The element under a point of the shown picture. -/
def showResolved (input : SnapshotInput) (format : OutputFormat) (shown : Point) (ratio : Float)
    (file : FileText) : Outcome := do
  let t ← input.load file
  let scale ← scaleOfRatio ratio
  let point := scale.toDevice shown
  let n ← nodeUnder t point
  let described := (Details.describe t.evaluator [] n.element).1
  match format with
  | .text =>
    let chain := Text.joined " > " ((t.candidates point).map Node.reference)
    pure (o.details described ++ fieldLine "under point" chain)
  | .json => pure (jsonLines described.toJson)

/-- The node that a target means. -/
def targetNode (t : Tree) (ratio : Float) : Target → Except CommandError Node
  | .reference reference =>
    match t.find? reference with
    | some n => .ok n
    | none => .error (.unknownReference reference)
  | .shownPoint shown => do
    let scale ← scaleOfRatio ratio
    nodeUnder t (scale.toDevice shown)

/-- An expression that selects a target alone. -/
def showLocator (input : SnapshotInput) (format : OutputFormat) (target : Target) (ratio : Float)
    (file : FileText) : Outcome := do
  let t ← input.load file
  let n ← targetNode t ratio target
  let locator ← (Locator.synthesize t.evaluator [] n.element).1.mapError .inspection
  match format with
  | .text => pure (line (o.accent locator.expression))
  | .json =>
    pure (jsonLines (.object
      [("expression", .string locator.expression),
       ("initial_matches", .whole locator.baseMatches),
       ("reference", .string n.reference),
       ("refined", .bool locator.isRefined)]))

/-- The elements that an expression selects. -/
def showMatches (input : SnapshotInput) (format : OutputFormat) (expression : String)
    (file : FileText) : Outcome := do
  let t ← input.load file
  let found ← (t.evaluator.answer [] expression).mapError .inspection
  match format with
  | .text =>
    let lines := found.map fun reference =>
      let title :=
        match t.find? reference with
        | some n => n.element.title
        | none => ""
      line ("  " ++ title ++ " " ++ o.accent ("(" ++ reference ++ ")"))
    pure (line ("found " ++ toString found.length ++ " results.") ++ String.join lines)
  | .json => pure (jsonLines (.array (found.map Json.string)))

end Output

/-- The script of clicks on the shown picture. -/
def showRecording (input : SnapshotInput) (format : ScriptFormat) (clicks : List Point)
    (ratio : Float) (file : FileText) : Outcome := do
  let t ← input.load file
  let scale ← scaleOfRatio ratio
  let recorder ← (Recorder.offline t (clicks.map scale.toDevice)).mapError .recording
  match format with
  | .java => pure (scriptOf .java recorder.steps)
  | .python => pure (scriptOf .python recorder.steps)
  | .json => pure (jsonLines (.array (recorder.steps.map RecordedStep.toJson)))

end ScreenInspector.CommandLine
