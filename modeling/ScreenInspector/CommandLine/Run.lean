/-
  ScreenInspector/CommandLine/Run.lean
  ====================================
  **Running a command** that needs no device.

  Every command reads one file at most, so running it is a function of the text of that file.  The
  live command only settles its configuration here; its session is that of
  `ScreenInspector.CommandLine.Session`.
-/
import ScreenInspector.CommandLine.SnapshotCommands
import ScreenInspector.Device.ConfigurationText

namespace ScreenInspector.CommandLine

/-- The file that a command reads. -/
def Command.path? : Command → Option String
  | .tree input _ _ => some input.path
  | .resolve input _ _ _ => some input.path
  | .locate input _ _ _ => some input.path
  | .query input _ _ => some input.path
  | .record input _ _ _ => some input.path
  | .live options => options.path
  | .configuration path => path

/-- The configuration in a file, if one was named, and the usual one otherwise. -/
def loadConfiguration (path : Option String) (file : FileText) :
    Except CommandError Configuration :=
  match path, file with
  | none, _ => .ok {}
  | some _, .error fault => .error (.inspection (.io fault.text))
  | some path, .ok text =>
    (Configuration.ofFile path text).mapError fun fault => .inspection (.configuration fault)

/-- The configuration with what the options of a live session say instead. -/
def LiveOptions.override (o : LiveOptions) (c : Configuration) : Configuration :=
  { c with
    record := c.record || o.record
    device := { c.device with
      baseUrl := o.baseUrl.getD c.device.baseUrl
      sessionId := o.session.getD c.device.sessionId } }

/-- The configuration of a live session, which must be valid with its device. -/
def LiveOptions.configuration (o : LiveOptions) (file : FileText) :
    Except CommandError Configuration := do
  let c := o.override (← loadConfiguration o.path file)
  let checked := do
    c.validate
    c.device.validate
  checked.mapError fun fault => .inspection (.configuration fault)
  pure c

/-- What a command writes.  The text of its file counts only if it names one. -/
def Command.run (o : Output) (command : Command) (file : FileText) : Outcome :=
  match command with
  | .tree input format withSource => o.showTree input format withSource file
  | .resolve input format shown ratio => o.showResolved input format shown ratio file
  | .locate input format target ratio => o.showLocator input format target ratio file
  | .query input format expression => o.showMatches input format expression file
  | .record input format clicks ratio => showRecording input format clicks ratio file
  | .live options => (options.configuration file).map Configuration.text
  | .configuration path => (loadConfiguration path file).map Configuration.text

end ScreenInspector.CommandLine
