/-
  ScreenInspector/Recording/Offline.lean
  ======================================
  **Recording without a device**: clicks on one tree, whose taps go nowhere.

  Either every click is recorded, or the answer is the list of those that were not.
-/
import ScreenInspector.Recording.Recorder

namespace ScreenInspector

/-- Why a click was not recorded, or not tapped. -/
inductive ClickFailure where
  | ignored
  | noElement (point : Point)
  | because (error : InspectionError)
deriving Inhabited

namespace ClickFailure

def text : ClickFailure → String
  | .ignored => "ignored"
  | .noElement point => "no element at " ++ point.text
  | .because error => error.message

/-- The failure that an outcome stands for. -/
def ofOutcome? : ClickOutcome → Option ClickFailure
  | .ignored => some .ignored
  | .noElement point => some (.noElement point)
  | .failed error => some (.because error)
  | .tapFailed _ error => some (.because error)
  | .recorded _ => none

end ClickFailure

/-- A click that failed, with its position among all clicks, counted from 1. -/
structure FailedClick where
  position : Nat
  failure : ClickFailure
deriving Inhabited

def FailedClick.text (f : FailedClick) : String :=
  "click " ++ toString f.position ++ ": " ++ f.failure.text

namespace Recorder

/-- Clicks in order, the first of which has the given position: those that failed, and the recorder
after all of them. -/
def clickAll (t : Tree) (v : Evaluator) :
    Nat → Questions → Recorder → List Point → List FailedClick × Recorder
  | _, _, r, [] => ([], r)
  | position, asked, r, p :: rest =>
    let (outcome, r, asked, _) := r.click Device.idle t v asked p (Connection.opened ())
    let (failures, r) := clickAll t v (position + 1) asked r rest
    match ClickFailure.ofOutcome? outcome with
    | some failure => (⟨position, failure⟩ :: failures, r)
    | none => (failures, r)

/-- A recorder that recorded all clicks on a tree, or the clicks that failed. -/
def offline (t : Tree) (points : List Point) : Except (List FailedClick) Recorder :=
  match clickAll t t.evaluator 1 [] { isArmed := true } points with
  | ([], r) => .ok r
  | (failures, _) => .error failures

end Recorder

end ScreenInspector
