/-
  ScreenInspector/CommandLine/Output.lean
  =======================================
  **How results are told**: texts of outlines, details and updates, in colour if wanted.
-/
import ScreenInspector.CommandLine.Settings
import ScreenInspector.Inspection.Update

namespace ScreenInspector.CommandLine

inductive Style where
  | bold
  | dim
  | cyan
  | green
  | yellow
  | boldRed
deriving DecidableEq, Repr, Inhabited

/-- The numbers of the terminal's control sequences for a style, colour first. -/
def Style.codes : Style → List Nat
  | .bold => [1]
  | .dim => [2]
  | .cyan => [36]
  | .green => [32]
  | .yellow => [33]
  | .boldRed => [31, 1]

/-- The control sequence of a number; 0 ends all styles. -/
def controlSequence (code : Nat) : String :=
  "\x1b[" ++ toString code ++ "m"

structure Output where
  isColored : Bool := false
  verbosity : Verbosity := .normal
deriving DecidableEq, Repr, Inhabited

namespace Output

/-- The output for given settings; a colour choice that depends on the terminal counts as none. -/
def ofSettings (s : Settings) : Output :=
  { isColored := s.color == .always, verbosity := s.verbosity }

variable (o : Output)

def paint (style : Style) (text : String) : String :=
  if o.isColored then
    String.join (style.codes.map controlSequence) ++ text ++ controlSequence 0
  else text

/-- How references and locators are told. -/
def accent (text : String) : String :=
  o.paint .cyan text

def severityLabel : Severity → String
  | .debug => o.paint .dim "debug"
  | .info => o.paint .green "info"
  | .warning => o.paint .yellow "warning"
  | .error => o.paint .boldRed "error"

/-- A text with the end of its line. -/
def line (text : String) : String :=
  text ++ "\n"

/-- A line of a tree view, two blanks further in for each level. -/
def outlineLine (l : Node.OutlineLine) : String :=
  line (String.ofList (List.replicate (2 * l.depth) ' ') ++ l.title ++ " " ++
    o.accent ("(" ++ l.reference ++ ")"))

def outline (lines : List Node.OutlineLine) : String :=
  String.join (lines.map o.outlineLine)

def rectText (r : Rect) : String :=
  "x=" ++ Number.plainText r.x ++ " y=" ++ Number.plainText r.y ++ " w=" ++
    Number.plainText r.width ++ " h=" ++ Number.plainText r.height

/-- An indented line with a name and a value. -/
def fieldLine (name value : String) : String :=
  line ("  " ++ name ++ ": " ++ value)

def details (d : Details) : String :=
  line (o.paint .bold d.title) ++ fieldLine "reference" d.reference ++ fieldLine "type" d.kind ++
    (match d.rect with
      | some r => fieldLine "rect" (rectText r)
      | none => "") ++
    String.join (d.attributes.map fun (name, value) => fieldLine name value) ++
    (match d.localization with
      | some l =>
        fieldLine "l10n" ("matches=" ++ toString l.matchCount ++ " key=" ++ l.key.getD "-")
      | none => "") ++
    fieldLine "xpath"
      (match d.locator with
        | some locator => o.accent locator
        | none => "-")

/-- Whether notices of a severity are told at all. -/
def shows : Severity → Bool
  | .debug => o.verbosity.isVerbose
  | .info => !o.verbosity.isQuiet
  | .warning => true
  | .error => true

def notice (n : Notice) : String :=
  if o.shows n.severity then line ("[" ++ o.severityLabel n.severity ++ "] " ++ n.message) else ""

/-- Notices first, then what the search found, the details or else the references of all
highlights, and the step that was recorded. -/
def update (u : Update) : String :=
  String.join (u.notices.map o.notice) ++
    (match u.searchLog with
      | some log => line log
      | none => "") ++
    (match u.details with
      | some d => o.details d
      | none => String.join (u.highlights.map fun h => line ("  " ++ o.accent h.reference))) ++
    (match u.recorded with
      | some step => line ("step " ++ toString step.index ++ ": " ++ o.accent step.locator)
      | none => "")

end Output

end ScreenInspector.CommandLine
