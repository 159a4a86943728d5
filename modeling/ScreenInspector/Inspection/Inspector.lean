/-
  ScreenInspector/Inspection/Inspector.lean
  =========================================
  **The inspector**: the state of an inspection, and what events make of it.

  No event fails: whatever goes wrong becomes a notice, and the state stays as it was.  Every
  snapshot that is loaded starts a new generation, and a selection holds only for the generation
  in which it was made.  While the selection is locked, pointing changes nothing.
-/
import ScreenInspector.Device.Configuration
import ScreenInspector.Inspection.Event
import ScreenInspector.Inspection.Update
import ScreenInspector.Recording.Recorder

namespace ScreenInspector

/-- A snapshot whose payload became a tree. -/
structure Loaded where
  tree : Tree
  screenshot : Screenshot
deriving Inhabited

/-- The selected node, and the generation of the tree in which it was selected. -/
structure Selection where
  reference : String
  generation : Nat
deriving DecidableEq, Repr, Inhabited

structure Inspector where
  configuration : Configuration
  recorder : Recorder
  loaded : Option Loaded := none
  /-- The number of snapshots loaded so far. -/
  generation : Nat := 0
  isLocked : Bool := false
  isSearchShown : Bool := false
  /-- Width and height at which the picture is shown. -/
  shownSize : Option (Float × Float) := none
  scale : Scale := Scale.identity
  latestSelection : Option Selection := none
deriving Inhabited

namespace Inspector

/-- An inspector before its first snapshot. -/
def new (c : Configuration) : Inspector :=
  { configuration := c, recorder := { isArmed := c.record } }

variable (i : Inspector)

def tree? : Option Tree :=
  i.loaded.map Loaded.tree

def screenshot? : Option Screenshot :=
  i.loaded.map Loaded.screenshot

/-- The selection, if it was made in the current tree. -/
def selection? : Option Selection :=
  i.latestSelection.filter fun s => s.generation == i.generation

/-- The selected node of the current tree. -/
def selectedNode? : Option Node := do
  let s ← i.selection?
  let t ← i.tree?
  t.find? s.reference

/-- The lines of the tree view. -/
def outline : List Node.OutlineLine :=
  match i.tree? with
  | some t => t.outline
  | none => []

/-- The markup of the current web view. -/
def webViewMarkup? : Option String :=
  i.tree?.bind Tree.webViewMarkup?

/-! ### Scale -/

/-- The scale of a picture that is shown with a given size. -/
def scaleOf (shownSize : Option (Float × Float)) (screenshot : Option Screenshot) : Scale :=
  match shownSize, screenshot with
  | some (width, _), some s =>
    if s.hasSize then Scale.ofWidths width (Number.ofNat s.width) else Scale.identity
  | _, _ => Scale.identity

/-- The picture is shown with a given size from now on. -/
def setShownSize (width height : Float) : Inspector :=
  let size := some (width, height)
  { i with shownSize := size, scale := scaleOf size i.screenshot? }

/-! ### Selecting -/

/-- The box to draw for a node that has one. -/
def highlight? (n : Node) : Option Highlight :=
  n.element.rect.map fun r =>
    { reference := n.reference, shown := i.scale.toShown r,
      isLocalized := match n.element.localization with
        | some l => l.isFound
        | none => false }

/-- The selection of a reference in the current tree. -/
def selecting (reference : String) : Inspector :=
  { i with latestSelection := some ⟨reference, i.generation⟩ }

/-- A node of the current tree is selected and described. -/
def select (t : Tree) (n : Node) : Update × Inspector :=
  ({ highlights := (i.highlight? n).toList
     details := some (Details.describe t.evaluator [] n.element).1 },
   i.selecting n.reference)

/-! ### Events that need no device -/

/-- What the operator is told before the first snapshot. -/
def noSnapshot : Update :=
  .notice .debug "No snapshot loaded"

/-- The pointer moves to a point of the shown picture. -/
def pointerMove (shown : Point) : Update × Inspector :=
  if i.isLocked then (.nothing, i)
  else
    match i.tree? with
    | none => (noSnapshot, i)
    | some t =>
      let point := i.scale.toDevice shown
      match t.nodeAt? point with
      | some n => i.select t n
      | none => (.notice .debug (InspectionError.noElementAt point).message, i)

/-- The pointer moves over the tree view. -/
def treeHover (reference : String) : Update × Inspector :=
  if i.isLocked then (.nothing, i)
  else
    match i.tree?.bind fun t => (t.find? reference).map fun n => (t, n) with
    | some (t, n) => i.select t n
    | none => (.notice .debug ("Unknown reference " ++ reference), i)

def pressKey : KeyCommand → Update × Inspector
  | .toggleLock =>
    let locked := !i.isLocked
    (.notice .info ("Selection " ++ if locked then "locked" else "unlocked"),
      { i with isLocked := locked })
  | .toggleSearch =>
    let isShown := !i.isSearchShown
    (.notice .debug ("Locator search " ++ if isShown then "shown" else "hidden"),
      { i with isSearchShown := isShown })

/-- The line below the search box after an error: of an invalid expression only what is wrong with
it. -/
def errorLog : InspectionError → String
  | .invalidExpression _ fault => "Error: " ++ fault.message
  | e => "Error: " ++ e.message

/-- An expression was typed into the search box.  If it selects one element, that element is
selected. -/
def locatorInput (expression : String) : Update × Inspector :=
  match i.tree? with
  | none => (noSnapshot, i)
  | some t =>
    match t.evaluator.answer [] expression with
    | .ok found =>
      let log := "found " ++ toString found.length ++ " results."
      let highlights := (found.filterMap t.find?).filterMap i.highlight?
      match found with
      | [only] =>
        let details := (t.find? only).map fun n => (Details.describe t.evaluator [] n.element).1
        ({ highlights, details, searchLog := some log }, i.selecting only)
      | _ => ({ highlights, searchLog := some log }, { i with latestSelection := none })
    | .error e =>
      let notices := if e.isOperatorError then [] else (Update.ofError e).notices
      ({ searchLog := some (errorLog e), notices }, { i with latestSelection := none })

/-! ### Events that go to the device -/

/-- A fetched snapshot becomes the current one, if its payload is a tree. -/
def load : Except InspectionError Snapshot → Except InspectionError (Update × Inspector)
  | .error e => .error e
  | .ok s =>
    match Tree.ofPayload s.payload i.configuration.webViewKind with
    | .error cause => .error (.malformed cause)
    | .ok t =>
      .ok
        ({ notices := [⟨.info, "Loaded " ++ toString t.size ++ " elements"⟩]
           isRefreshed := true
           webViewMarkup := t.webViewMarkup? },
         { i with
           loaded := some ⟨t, s.screenshot⟩
           generation := i.generation + 1
           scale := scaleOf i.shownSize (some s.screenshot)
           latestSelection := none })

/-- A new snapshot is fetched; if that fails, the old one stays. -/
def refresh {σ : Type} (d : Device σ) (c : Connection σ) : Update × Inspector × Connection σ :=
  let (answer, c) := c.fetch d
  match i.load answer with
  | .ok (update, i) => (update, i, c)
  | .error e => (.notice .error ("Unable to refresh: " ++ e.message), i, c)

/-- The update that tells the outcome of a click, a refresh after it apart. -/
def clickUpdate : ClickOutcome → Update
  | .ignored => .nothing
  | .noElement point => .ofError (.noElementAt point)
  | .failed e => .ofError e
  | .tapFailed step e => { Update.ofError e with recorded := some step }
  | .recorded step =>
    { Update.notice .info ("Recorded step " ++ toString step.index ++ ": " ++ step.locator) with
      recorded := some step }

/-- The pointer clicks on the shown picture.  After a step that was recorded and tapped the
snapshot is fetched anew. -/
def pointerClick {σ : Type} (d : Device σ) (c : Connection σ) (shown : Point) :
    Update × Inspector × Connection σ :=
  match i.tree? with
  | none => (noSnapshot, i, c)
  | some t =>
    let (outcome, recorder, _, c) :=
      i.recorder.click d t t.evaluator [] (i.scale.toDevice shown) c
    let clicked := { i with recorder }
    match outcome with
    | .recorded _ =>
      let (refreshed, next, c) := clicked.refresh d c
      ((clickUpdate outcome).followedBy refreshed, next, c)
    | _ => (clickUpdate outcome, clicked, c)

/-- What an event makes of an inspection. -/
def handle {σ : Type} (d : Device σ) (c : Connection σ) :
    Event → Update × Inspector × Connection σ
  | .pointerMove shown => let (update, next) := i.pointerMove shown; (update, next, c)
  | .pointerClick shown => i.pointerClick d c shown
  | .treeHover reference => let (update, next) := i.treeHover reference; (update, next, c)
  | .key command => let (update, next) := i.pressKey command; (update, next, c)
  | .locatorInput expression => let (update, next) := i.locatorInput expression; (update, next, c)
  | .refresh => i.refresh d c

end Inspector

end ScreenInspector
