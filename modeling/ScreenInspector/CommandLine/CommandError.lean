/-
  ScreenInspector/CommandLine/CommandError.lean
  =============================================
  **Why a command fails**, and how that is worded.
-/
import ScreenInspector.Recording.Offline

namespace ScreenInspector.CommandLine

/-- Why the text of a file cannot be had. -/
inductive FileFault where
  | missing
  | isDirectory
  /-- The path goes through something that is no directory. -/
  | notDirectory
  | notPermitted
  /-- The bytes are no text. -/
  | notText
  | other (text : String)
deriving DecidableEq, Repr, Inhabited

def FileFault.text : FileFault → String
  | .missing => "No such file or directory (os error 2)"
  | .isDirectory => "Is a directory (os error 21)"
  | .notDirectory => "Not a directory (os error 20)"
  | .notPermitted => "Permission denied (os error 13)"
  | .notText => "stream did not contain valid UTF-8"
  | .other text => text

inductive CommandError where
  /-- A ratio of widths that is no scale. -/
  | badRatio (ratio : Float)
  | unknownReference (reference : String)
  | unreadableSnapshot (path : String) (fault : FileFault)
  | malformedSnapshot (path : String) (cause : Malformation)
  | recording (failures : List FailedClick)
  | inspection (error : InspectionError)
deriving Inhabited

namespace CommandError

def message : CommandError → String
  | .badRatio ratio =>
    "Invalid argument: scale must be a positive number, got " ++ Number.plainText ratio
  | .unknownReference reference =>
    "Invalid argument: no element with reference " ++ reference
  | .unreadableSnapshot path fault => "Cannot load snapshot " ++ path ++ ": " ++ fault.text
  | .malformedSnapshot path cause => "Cannot load snapshot " ++ path ++ ": " ++ cause.message
  | .recording failures =>
    "Recording failed: " ++ Text.joined "; " (failures.map FailedClick.text)
  | .inspection error => error.message

end CommandError

end ScreenInspector.CommandLine
