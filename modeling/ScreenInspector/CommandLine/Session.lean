/-
  ScreenInspector/CommandLine/Session.lean
  ========================================
  **Sessions**: an inspection that is driven line by line.

  The snapshot is loaded before the first line.  Every line writes something, which may be nothing,
  and hands its state on; `quit` ends the session, and so does the end of its lines.  A session that
  recorded steps writes their script at its end.
-/
import ScreenInspector.CommandLine.Output
import ScreenInspector.CommandLine.SessionLine
import ScreenInspector.Inspection.Inspector

namespace ScreenInspector.CommandLine

/-- The state of a session: the inspection, and the connection to its device. -/
structure Session (σ : Type) where
  inspector : Inspector
  connection : Connection σ

namespace Session

variable {σ : Type}

def helpText : String :=
  "commands: move X Y | click X Y | hover REF | lock | search | find EXPR | refresh | tree | " ++
    "webview | screenshot | script [java|python] | help | quit"

def webViewText (i : Inspector) : String :=
  Output.line (i.webViewMarkup?.getD "no web view in this snapshot")

def screenshotText (i : Inspector) : String :=
  match i.screenshot? with
  | none => Output.line "no snapshot loaded"
  | some s =>
    let size := "screenshot " ++ toString s.width ++ "x" ++ toString s.height ++ ", "
    if s.byteCount = 0 then Output.line (size ++ "no image data")
    else Output.line (size ++ toString s.byteCount ++ " bytes") ++ Output.line s.dataAddress

/-- What an event writes, and the session after it. -/
def onEvent (o : Output) (d : Device σ) (s : Session σ) (e : Event) : String × Session σ :=
  let (update, inspector, connection) := s.inspector.handle d s.connection e
  (o.update update, ⟨inspector, connection⟩)

/-- What a command writes, and the session after it. -/
def onCommand (o : Output) (d : Device σ) (s : Session σ) : SessionCommand → String × Session σ
  | .event e => s.onEvent o d e
  | .tree => (o.outline s.inspector.outline, s)
  | .webView => (webViewText s.inspector, s)
  | .screenshot => (screenshotText s.inspector, s)
  | .script flavor => (scriptOf flavor s.inspector.recorder.steps, s)
  | .help => (Output.line helpText, s)
  | .quit => ("", s)

/-- What a line writes, and the session after it; no session if the line ends it. -/
def onLine (o : Output) (d : Device σ) (s : Session σ) (line : String) :
    String × Option (Session σ) :=
  match SessionCommand.ofLine line with
  | .error message => (Output.line message, some s)
  | .ok none => ("", some s)
  | .ok (some .quit) => ("", none)
  | .ok (some command) =>
    let (text, s) := s.onCommand o d command
    (text, some s)

/-- What the lines write, one text for each line up to the end of the session, and the session
after them. -/
def onLines (o : Output) (d : Device σ) : Session σ → List String → List String × Session σ
  | s, [] => ([], s)
  | s, line :: rest =>
    match s.onLine o d line with
    | (text, none) => ([text], s)
    | (text, some next) =>
      let (texts, final) := onLines o d next rest
      (text :: texts, final)

/-- The script of the steps that a session recorded. -/
def closing (s : Session σ) : String :=
  let r := s.inspector.recorder
  if r.isArmed && r.stepCount != 0 then scriptOf .java r.steps else ""

/-- What a whole session writes, and the session after it. -/
def run (o : Output) (d : Device σ) (s : Session σ) (lines : List String) : String × Session σ :=
  let (opening, s) := s.onEvent o d .refresh
  let (texts, s) := onLines o d s lines
  (opening ++ String.join texts ++ s.closing, s)

end Session

/-- The lines of a text. -/
def linesOf (text : String) : List String :=
  (text.toList.splitOn '\n').map String.ofList

end ScreenInspector.CommandLine
