/-
  ScreenInspector/Recording/Recorder.lean
  =======================================
  **The recorder**: turns clicks into steps and taps, one click at a time.

  A click has three stages.  It *starts*: the element under the point is found, an expression for it
  is asked for and confirmed, the step is recorded and its tap goes out.  Then the *tap is
  answered*, and after a tap that succeeded the device *settles*.

  A click acquires the recorder before anything else and releases it at its end, whichever way it
  ends; a click that starts meanwhile is ignored.  A click whose tap or settling is given up releases
  the recorder too, and leaves its step.

  `start`, `tapAnswered` and `settled` are these stages one by one, so that clicks can overlap;
  `click` is a whole click on a device that answers at once.
-/
import ScreenInspector.Device.Connection
import ScreenInspector.Locator.Synthesis
import ScreenInspector.Recording.Step
import ScreenInspector.Screen.HitTest

namespace ScreenInspector

structure Recorder where
  /-- Whether clicks are recorded at all. -/
  isArmed : Bool
  /-- Whether a click is being handled. -/
  isBusy : Bool := false
  stepCount : Nat := 0
  /-- The steps in the order in which they were recorded. -/
  steps : List RecordedStep := []
deriving Inhabited

/-- What a click comes to. -/
inductive ClickOutcome where
  /-- The recorder is not armed, or busy with another click. -/
  | ignored
  | noElement (point : Point)
  /-- No expression selects the element alone. -/
  | failed (error : InspectionError)
  | recorded (step : RecordedStep)
  /-- The step is recorded, but the device did not take the tap. -/
  | tapFailed (step : RecordedStep) (error : InspectionError)
deriving Inhabited

/-- The step that a click recorded. -/
def ClickOutcome.step? : ClickOutcome → Option RecordedStep
  | .recorded step => some step
  | .tapFailed step _ => some step
  | _ => none

/-- What the start of a click comes to: its end, or a step whose tap is on its way. -/
inductive ClickStart where
  | ended (outcome : ClickOutcome)
  | tapping (step : RecordedStep)
deriving Inhabited

/-- Failures of a tap count as failures of the channel, whatever they were. -/
def InspectionError.asChannelFailure : InspectionError → InspectionError
  | .channel text => .channel text
  | e => .channel e.message

namespace Recorder

/-- An expression for an element, synthesized and then confirmed by one more question. -/
def locate (v : Evaluator) (asked : Questions) (e : Element) : Locator.Search String :=
  match Locator.synthesize v asked e with
  | (.error error, asked) => (.error error, asked)
  | (.ok locator, asked) =>
    match Locator.confirm v asked locator.expression with
    | (.error error, asked) => (.error error, asked)
    | (.ok reference, asked) =>
      if reference = e.reference then (.ok locator.expression, asked)
      else (.error (.ambiguous locator.expression 1), asked)

/-- The recorder with a click to handle. -/
def acquired (r : Recorder) : Recorder :=
  { r with isBusy := true }

/-- The recorder after a click ended, or was given up. -/
def released (r : Recorder) : Recorder :=
  { r with isBusy := false }

/-- The recorder as a click acquires it, unless another one has it. -/
def acquire? (r : Recorder) : Option Recorder :=
  if r.isBusy then none else some r.acquired

/-- The recorder after a step was recorded. -/
def push (r : Recorder) (s : RecordedStep) : Recorder :=
  { r with stepCount := r.stepCount + 1, steps := r.steps ++ [s] }

/-- A click starts. -/
def start (r : Recorder) (t : Tree) (v : Evaluator) (asked : Questions) (p : Point) :
    ClickStart × Recorder × Questions :=
  if !r.isArmed then (.ended .ignored, r, asked)
  else
    match r.acquire? with
    | none => (.ended .ignored, r, asked)
    | some r =>
      match t.nodeAt? p with
      | none => (.ended (.noElement p), r.released, asked)
      | some n =>
        match locate v asked n.element with
        | (.error e, asked) => (.ended (.failed e), r.released, asked)
        | (.ok expression, asked) =>
          let step := ⟨r.stepCount + 1, expression, .click, p⟩
          (.tapping step, r.push step, asked)

/-- The tap of a step is answered: a failure ends the click, after a success the device settles. -/
def tapAnswered (r : Recorder) (s : RecordedStep) (answer : Except InspectionError Unit) :
    Option ClickOutcome × Recorder :=
  match answer with
  | .ok () => (none, r)
  | .error e => (some (.tapFailed s e.asChannelFailure), r.released)

/-- The device settled after the tap of a step. -/
def settled (r : Recorder) (s : RecordedStep) : ClickOutcome × Recorder :=
  (.recorded s, r.released)

/-- A click from its tap's answer to its end. -/
def finish (r : Recorder) (s : RecordedStep) (answer : Except InspectionError Unit) :
    ClickOutcome × Recorder :=
  match r.tapAnswered s answer with
  | (some outcome, r) => (outcome, r)
  | (none, r) => r.settled s

/-- A whole click on a device that answers at once. -/
def click {σ : Type} (d : Device σ) (t : Tree) (v : Evaluator) (asked : Questions) (p : Point)
    (r : Recorder) (c : Connection σ) : ClickOutcome × Recorder × Questions × Connection σ :=
  match r.start t v asked p with
  | (.ended outcome, r, asked) => (outcome, r, asked, c)
  | (.tapping step, r, asked) =>
    let (answer, c) := c.tap d p
    let (outcome, r) := r.finish step answer
    (outcome, r, asked, c)

end Recorder

end ScreenInspector
