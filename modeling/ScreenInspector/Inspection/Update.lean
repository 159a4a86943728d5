/-
  ScreenInspector/Inspection/Update.lean
  ======================================
  **What changes for the operator** after an event, and the written form of it.
-/
import ScreenInspector.Recording.Step

namespace ScreenInspector

/-- How much a notice matters. -/
inductive Severity where
  | debug
  | info
  | warning
  | error
deriving DecidableEq, Repr, Inhabited

/-- A message to the operator. -/
structure Notice where
  severity : Severity
  message : String
deriving DecidableEq, Repr, Inhabited

/-- A box drawn on the shown picture. -/
structure Highlight where
  reference : String
  shown : Rect
  /-- Whether the text of the element matched a known key. -/
  isLocalized : Bool
deriving Inhabited

structure Update where
  /-- The boxes that are drawn from now on. -/
  highlights : List Highlight := []
  details : Option Details := none
  /-- The line below the search box. -/
  searchLog : Option String := none
  notices : List Notice := []
  recorded : Option RecordedStep := none
  /-- Whether a new snapshot was loaded. -/
  isRefreshed : Bool := false
  /-- The markup of the web view in the new snapshot. -/
  webViewMarkup : Option String := none
deriving Inhabited

namespace Update

/-- Nothing changes. -/
def nothing : Update := {}

/-- Nothing changes but that the operator gets a message. -/
def notice (severity : Severity) (message : String) : Update :=
  { notices := [⟨severity, message⟩] }

/-- The message of an error: a warning if the operator caused it. -/
def ofError (e : InspectionError) : Update :=
  notice (if e.isOperatorError then .warning else .error) e.message

/-- An update followed by that of a refresh: a refresh that loaded something replaces what is shown,
and its notices come last. -/
def followedBy (first refresh : Update) : Update :=
  let shown :=
    if refresh.isRefreshed then
      { first with
        highlights := refresh.highlights, details := refresh.details,
        webViewMarkup := refresh.webViewMarkup, isRefreshed := true }
    else first
  { shown with notices := first.notices ++ refresh.notices }

/-- Whether one of the notices is an error. -/
def hasErrors (u : Update) : Bool :=
  u.notices.any fun n => n.severity == .error

end Update

/-! ### Written form -/

def Severity.word : Severity → String
  | .debug => "Debug"
  | .info => "Info"
  | .warning => "Warning"
  | .error => "Error"

def Notice.toJson (n : Notice) : Json :=
  .object [("severity", .string n.severity.word), ("message", .string n.message)]

def Highlight.toJson (h : Highlight) : Json :=
  .object
    [("reference", .string h.reference), ("rect", h.shown.toJson),
     ("translation_found", .bool h.isLocalized)]

/-- The field of the web view's markup is left out if there is none. -/
def Update.toJson (u : Update) : Json :=
  .object
    ([("highlights", .array (u.highlights.map Highlight.toJson)),
      ("details", Json.ofOption Details.toJson u.details),
      ("locator_log", Json.ofOption Json.string u.searchLog),
      ("notices", .array (u.notices.map Notice.toJson)),
      ("recorded", Json.ofOption RecordedStep.toJson u.recorded),
      ("refreshed", .bool u.isRefreshed)] ++
      match u.webViewMarkup with
      | some markup => [("web_view_markup", Json.string markup)]
      | none => [])

end ScreenInspector
