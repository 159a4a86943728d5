/-
  ScreenInspector/Main.lean
  =========================
  **The program**: reads arguments, files and lines, and writes what the commands yield.
-/
import ScreenInspector.CommandLine.Run
import ScreenInspector.CommandLine.Session

namespace ScreenInspector.CommandLine

/-- The text shown for a request for help. -/
def usageText : String :=
  "usage: screen-inspector [-v] [-q] [--color auto|always|never] [--log-json] COMMAND\n" ++
    "  tree SNAPSHOT [--xml]\n" ++
    "  resolve SNAPSHOT --x X --y Y [--scale RATIO]\n" ++
    "  locate SNAPSHOT (--reference REF | --x X --y Y) [--scale RATIO]\n" ++
    "  query SNAPSHOT EXPRESSION\n" ++
    "  record SNAPSHOT --click X,Y ... [--format java|python|json] [--scale RATIO]\n" ++
    "  live [--config FILE] [--base-url URL] [--session ID] [--record] [--rendered W,H]\n" ++
    "  config [--path FILE]"

/-- The fault that an error of the file system stands for. -/
def fileFault : IO.Error → FileFault
  | .noFileOrDirectory .. => .missing
  | .permissionDenied .. => .notPermitted
  | .inappropriateType .. => .isDirectory
  | e => .other (toString e)

/-- The text of a file. -/
def readFile (path : String) : IO FileText := do
  try
    let bytes ← IO.FS.readBinFile path
    match String.fromUTF8? bytes with
    | some text => pure (.ok text)
    | none => pure (.error .notText)
  catch e => pure (.error (fileFault e))

/-- A device to which no call gets through. -/
def unreachableDevice (c : Configuration) : Device Unit :=
  let failure (address : String) : InspectionError :=
    .channel ("GET " ++ address ++ ": no transport")
  let endpoints := (c.device.endpoints.toOption).getD (Endpoints.below "" "")
  { fetch := fun _ => (.error (failure endpoints.tree), ())
    tap := fun _ _ => (.error (failure endpoints.tap), ()) }

/-- Reads and obeys lines until the session ends. -/
partial def sessionLoop (o : Output) (d : Device Unit) (input output : IO.FS.Stream)
    (s : Session Unit) : IO (Session Unit) := do
  let line ← input.getLine
  if line.isEmpty then pure s
  else
    let (text, next) := s.onLine o d line
    output.putStr text
    output.flush
    match next with
    | some next => sessionLoop o d input output next
    | none => pure s

/-- A live session on the standard input and output. -/
def runLive (o : Output) (c : Configuration) (options : LiveOptions) : IO Unit := do
  let input ← IO.getStdin
  let output ← IO.getStdout
  let device := unreachableDevice c
  let i := Inspector.new c
  let i := match options.shownSize with
    | some size => i.setShownSize size.x size.y
    | none => i
  let (opening, s) := Session.onEvent o device ⟨i, Connection.opened ()⟩ .refresh
  output.putStr opening
  let s ← sessionLoop o device input output s
  output.putStr s.closing

/-- Writes an error and yields the code of failure. -/
def complain (message : String) : IO UInt32 := do
  IO.eprintln ("Error: " ++ message)
  pure 1

/-- What arguments come to: 0 after success, 1 after a command that failed, 2 after arguments that
were refused. -/
def run (arguments : List String) : IO UInt32 := do
  match Invocation.ofArguments arguments with
  | .error .help => IO.println usageText; pure 0
  | .error .version => IO.println "screen-inspector 0.4.0"; pure 0
  | .error fault => IO.eprintln ("error: " ++ fault.message ++ "\n" ++ usageText); pure 2
  | .ok invocation =>
    let output := Output.ofSettings invocation.settings
    let file ←
      match invocation.command.path? with
      | some path => readFile path
      | none => pure (.error .missing)
    match invocation.command with
    | .live options =>
      match options.configuration file with
      | .error e => complain e.message
      | .ok c => runLive output c options; pure 0
    | command =>
      match command.run output file with
      | .error e => complain e.message
      | .ok text => IO.print text; pure 0

end ScreenInspector.CommandLine

def main (arguments : List String) : IO UInt32 :=
  ScreenInspector.CommandLine.run arguments
