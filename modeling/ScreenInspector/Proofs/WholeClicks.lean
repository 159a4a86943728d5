/-
  ScreenInspector/Proofs/WholeClicks.lean
  =======================================
  **A click records all or nothing.**

  Before it taps, a click searches for an expression and then asks for it once more, and an evaluator
  may have changed its mind.  So a click is recorded iff the expression that was found is confirmed
  by the very next answer (`Recorder.Admits`).  Then there are exactly one step and one tap, and nobody but
  the tap decides between the two outcomes that are left.  On every other way out there is neither,
  the recorder is what it was, and the outcome is the reason (`Recorder.Refused`).

  The two exclude each other, since a click starts in only one way (`Admits.unique`,
  `Refused.not_admits`).  An evaluator that answers consistently confirms whatever a search found.
-/
import ScreenInspector.Proofs.ListedTargets
import ScreenInspector.Proofs.PayloadFormats
import ScreenInspector.Proofs.RecorderStages

namespace ScreenInspector

/-- A consistent evaluator confirms what a search found. -/
theorem Locator.confirm_of_synthesize {v : Evaluator} (hv : v.IsConsistent) {asked : Questions}
    {e : Element} {l : Locator} (h : (synthesize v asked e).1 = .ok l) (asked' : Questions) :
    (confirm v asked' l.expression).1 = .ok e.reference := by
  simp [confirm, answer_of_ok hv h asked']

theorem InspectionError.asChannelFailure_cases (e : InspectionError) :
    (∃ text, e = .channel text ∧ e.asChannelFailure = .channel text) ∨
      (∀ text, e ≠ .channel text) ∧ e.asChannelFailure = .channel e.message := by
  cases e with
  | channel text => exact Or.inl ⟨text, rfl, rfl⟩
  | _ => exact Or.inr ⟨by simp, rfl⟩

namespace Recorder

variable {r : Recorder} {t : Tree} {v : Evaluator} {asked : Questions} {p : Point}

theorem Admits.unique {s s' : RecordedStep} (h : r.Admits t v asked p s)
    (h' : r.Admits t v asked p s') : s = s' := by
  obtain ⟨later, hstart⟩ := h.start
  obtain ⟨later', hstart'⟩ := h'.start
  rw [hstart] at hstart'
  exact ClickStart.tapping.inj (Prod.mk.inj hstart').1

theorem Refused.not_admits {outcome : ClickOutcome} (h : r.Refused t v asked p outcome)
    (s : RecordedStep) : ¬ r.Admits t v asked p s := by
  intro hadmits
  obtain ⟨later, hstart⟩ := h.start
  obtain ⟨later', hstart'⟩ := hadmits.start
  rw [hstart] at hstart'
  exact ClickStart.noConfusion (Prod.mk.inj hstart').1

/-- With a consistent evaluator a click is recorded as soon as an expression is found. -/
theorem admits_of_isConsistent (hv : v.IsConsistent) {n : Node} {l : Locator}
    {asked' : Questions} (h : r.Finds t v asked p n l asked') :
    r.Admits t v asked p ⟨r.stepCount + 1, l.expression, .click, p⟩ := by
  have hfound : (Locator.synthesize v asked n.element).1 = .ok l := by rw [h.synthesize_eq]
  exact ⟨n, l, asked', h, Locator.answer_of_ok hv hfound asked', rfl⟩

/-- **A click records all or nothing**, on every recorder and with every evaluator, also one whose
answers change.  One step is added, and one tap goes out, iff the recorder is armed and idle, there
is an element under the point, a search finds an expression for it, and the next answer to the
expression is this element and no other.  The step has the next index, the expression and the point;
the outcome carries it whether or not the tap is taken, and every error of the tap counts as one of
the channel.  In all other cases the recorder and the device are left alone, and the outcome is the
reason.  With a consistent evaluator the confirmation does not fail. -/
theorem click_all_or_nothing {σ : Type} (r : Recorder) (t : Tree) (v : Evaluator)
    (asked : Questions) (p : Point) (d : Device σ) (c : Connection σ) :
    (v.IsConsistent →
      (∀ e l asked', (Locator.synthesize v asked e).1 = .ok l →
        (Locator.confirm v asked' l.expression).1 = .ok e.reference) ∧
      ∀ n l asked', r.Finds t v asked p n l asked' →
        r.Admits t v asked p ⟨r.stepCount + 1, l.expression, .click, p⟩) ∧
    let (outcome, r', _, c') := r.click d t v asked p c;
    (∀ s, r'.steps = r.steps ++ [s] ↔ r.Admits t v asked p s) ∧
    (∀ s, outcome.step? = some s ↔ r.Admits t v asked p s) ∧
    (c'.calls = .tap p :: c.calls ↔ ∃ s, r.Admits t v asked p s) ∧
    (∀ s, r.Admits t v asked p s →
      r' = { isArmed := true, isBusy := false, stepCount := r.stepCount + 1,
             steps := r.steps ++ [s] } ∧
      c' = (c.tap d p).2 ∧
      ((c.tap d p).1 = .ok () → outcome = .recorded s) ∧
      ∀ e, (c.tap d p).1 = .error e → ∃ text, outcome = .tapFailed s (.channel text) ∧
        (e = .channel text ∨ (∀ other, e ≠ .channel other) ∧ text = e.message)) ∧
    ((∀ s, ¬ r.Admits t v asked p s) → r.Refused t v asked p outcome ∧ r' = r ∧ c' = c) := by
  refine ⟨fun hv => ⟨fun e l asked' h => Locator.confirm_of_synthesize hv h asked',
    fun n l asked' h => admits_of_isConsistent hv h⟩, ?_⟩
  rcases r.admits_or_refused t v asked p with ⟨s, hadmits⟩ | ⟨outcome, hrefused⟩
  case inl =>
    obtain ⟨later, hclick⟩ := hadmits.click d c
    have hiff : ∀ s', s' = s ↔ r.Admits t v asked p s' := by
      intro s'
      constructor
      · rintro rfl
        exact hadmits
      · intro h
        exact h.unique hadmits
    rw [hclick]
    refine ⟨?steps, ?step, ?calls, ?admitted, fun hnone => absurd hadmits (hnone s)⟩
    case steps =>
      intro s'
      simp [← hiff, eq_comm]
    case step =>
      intro s'
      rw [← hiff]
      cases (c.tap d p).1 <;> simp [outcomeOfTap, ClickOutcome.step?, eq_comm]
    case calls => exact ⟨fun _ => ⟨s, hadmits⟩, fun _ => rfl⟩
    case admitted =>
      intro s' hadmits'
      obtain rfl := (hiff s').mpr hadmits'
      obtain ⟨n, l, asked', hfinds, -⟩ := hadmits
      refine ⟨?_, rfl, ?_, ?_⟩
      · simp [push, released, hfinds.isArmed]
      · intro htap
        rw [htap, outcomeOfTap]
      · intro e htap
        rw [htap, outcomeOfTap]
        rcases e.asChannelFailure_cases with ⟨text, he, hfailure⟩ | ⟨hne, hfailure⟩
        · exact ⟨text, by rw [hfailure], Or.inl he⟩
        · exact ⟨e.message, by rw [hfailure], Or.inr ⟨hne, rfl⟩⟩
  case inr =>
    obtain ⟨later, hclick⟩ := hrefused.click d c
    have hnone := hrefused.not_admits
    rw [hclick]
    refine ⟨?_, ?_, ?_, fun s hadmits => absurd hadmits (hnone s), fun _ => ⟨hrefused, rfl, rfl⟩⟩
    · simp [hnone]
    · simp [hnone, hrefused.step?_eq]
    · simp [hnone]

/-- An evaluator that takes back what it found: it is asked twice, and nothing is recorded. -/
example :
    let (_, r, asked, c) := click Device.idle nativeScreenTree
      ⟨fun earlier _ => .ok (if earlier.isEmpty then ["web"] else [])⟩ [] ⟨2.0, 3.0⟩
      { isArmed := true } (.opened ())
    r.steps.length = 0 ∧ asked.length = 2 ∧ c.calls.length = 0 := by decide +kernel

end Recorder

end ScreenInspector
