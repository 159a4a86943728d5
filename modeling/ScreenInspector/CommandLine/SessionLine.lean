/-
  ScreenInspector/CommandLine/SessionLine.lean
  ============================================
  **Lines of a session**: a command word, in upper or lower case, and what belongs to it.
-/
import ScreenInspector.CommandLine.Coordinates
import ScreenInspector.Inspection.Event
import ScreenInspector.Recording.Script

namespace ScreenInspector.CommandLine

/-- What a line of a session asks for.  Only events act on the inspection. -/
inductive SessionCommand where
  | event (event : Event)
  | tree
  | webView
  | screenshot
  | script (flavor : ScriptFlavor)
  | help
  | quit
deriving Inhabited

namespace SessionCommand

/-- The command of a word in lower case and the rest of its line. -/
def ofWord (word : String) (rest : List Char) : Except String SessionCommand :=
  match word with
  | "move" => (coordinates rest).map fun p => .event (.pointerMove p)
  | "click" => (coordinates rest).map fun p => .event (.pointerClick p)
  | "hover" =>
    if rest.isEmpty then .error "hover needs a reference"
    else .ok (.event (.treeHover (String.ofList rest)))
  | "lock" => .ok (.event (.key .toggleLock))
  | "search" => .ok (.event (.key .toggleSearch))
  | "find" => .ok (.event (.locatorInput (String.ofList rest)))
  | "refresh" => .ok (.event .refresh)
  | "tree" => .ok .tree
  | "webview" => .ok .webView
  | "screenshot" => .ok .screenshot
  | "script" =>
    if rest.isEmpty then .ok (.script .java)
    else (ScriptFlavor.ofText (String.ofList rest)).map .script
  | "help" => .ok .help
  | "?" => .ok .help
  | "quit" => .ok .quit
  | "exit" => .ok .quit
  | other => .error ("unknown command " ++ Text.quoted other ++ ", try help")

/-- The command of a line; none if the line is blank. -/
def ofLine (line : String) : Except String (Option SessionCommand) :=
  match Text.trimChars line.toList with
  | [] => .ok none
  | cs =>
    let word := Text.lowerAscii (String.ofList (cs.takeWhile fun c => !Text.isBlank c))
    (ofWord word (Text.trimChars (cs.dropWhile fun c => !Text.isBlank c))).map some

end SessionCommand

end ScreenInspector.CommandLine
