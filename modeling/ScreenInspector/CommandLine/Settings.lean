/-
  ScreenInspector/CommandLine/Settings.lean
  =========================================
  **Settings of a run**: how much is told, in colour or not, and what is logged.
-/

namespace ScreenInspector.CommandLine

inductive Verbosity where
  | quiet
  | normal
  | verbose
  | debug
deriving DecidableEq, Repr, Inhabited

inductive ColorChoice where
  | automatic
  | always
  | never
deriving DecidableEq, Repr, Inhabited

structure Settings where
  verbosity : Verbosity := .normal
  color : ColorChoice := .automatic
  /-- Whether log lines are JSON. -/
  logsJson : Bool := false
deriving DecidableEq, Repr, Inhabited

namespace Verbosity

/-- Quiet wins over any number of requests to be verbose. -/
def ofFlags (isQuiet : Bool) (verboseCount : Nat) : Verbosity :=
  if isQuiet then .quiet
  else
    match verboseCount with
    | 0 => .normal
    | 1 => .verbose
    | _ => .debug

def isQuiet (v : Verbosity) : Bool :=
  v == .quiet

/-- Whether debug notices are shown. -/
def isVerbose (v : Verbosity) : Bool :=
  v == .verbose || v == .debug

/-- The least level of log messages. -/
def logLevel : Verbosity → String
  | .quiet => "error"
  | .normal => "warn"
  | .verbose => "info"
  | .debug => "debug"

end Verbosity

/-- Which log messages are kept: the level for everything, and again for the program itself. -/
def Settings.logFilter (s : Settings) : String :=
  s.verbosity.logLevel ++ ",tapscope=" ++ s.verbosity.logLevel

end ScreenInspector.CommandLine
