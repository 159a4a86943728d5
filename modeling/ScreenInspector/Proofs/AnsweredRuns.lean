/-
  ScreenInspector/Proofs/AnsweredRuns.lean
  ========================================
  **Inspections with their updates.**

  A run of inputs can be resumed in any state, and what the inputs are answered with is a log of
  them: an event is answered by its update, a new size of the picture by nothing.  Runs and logs of
  inputs one after the other are put together from those of the parts.
-/
import ScreenInspector.Proofs.RecordingRuns

namespace ScreenInspector.Inspector

variable {σ : Type}

/-- What an inspection answers to an input. -/
def reply? (d : Device σ) (i : Inspector) (c : Connection σ) : Input → Option Update
  | .event e => some (i.handle d c e).1
  | .shown _ _ => none

/-- Inputs one after the other, from a state on. -/
def resume (d : Device σ) (i : Inspector) (c : Connection σ) (inputs : List Input) :
    Inspector × Connection σ :=
  inputs.foldl (fun (i, c) input => i.receive d c input) (i, c)

/-- Inputs with what each is answered. -/
def log (d : Device σ) : Inspector → Connection σ → List Input → List (Input × Option Update)
  | _, _, [] => []
  | i, c, input :: rest =>
    (input, i.reply? d c input) ::
      log d (i.receive d c input).1 (i.receive d c input).2 rest

variable (d : Device σ) (i : Inspector) (c : Connection σ)

/-- A run resumes a new inspection. -/
theorem run_eq_resume (configuration : Configuration) (state : σ) (inputs : List Input) :
    run d configuration state inputs = resume d (new configuration) (.opened state) inputs := rfl

@[simp] theorem resume_nil : resume d i c [] = (i, c) := rfl

theorem resume_cons (input : Input) (rest : List Input) : resume d i c (input :: rest) =
    resume d (i.receive d c input).1 (i.receive d c input).2 rest := rfl

theorem log_cons (input : Input) (rest : List Input) : log d i c (input :: rest) =
    (input, i.reply? d c input) ::
      log d (i.receive d c input).1 (i.receive d c input).2 rest := rfl

theorem resume_append (first second : List Input) : resume d i c (first ++ second) =
    resume d (resume d i c first).1 (resume d i c first).2 second := by
  rw [resume, List.foldl_append]
  rfl

theorem log_append (first second : List Input) : log d i c (first ++ second) =
    log d i c first ++ log d (resume d i c first).1 (resume d i c first).2 second := by
  induction first generalizing i c with
  | nil => rfl
  | cons input rest ih =>
    rw [List.cons_append, log_cons, log_cons, resume_cons, ih]
    rfl

end ScreenInspector.Inspector
