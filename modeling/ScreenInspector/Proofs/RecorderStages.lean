/-
  ScreenInspector/Proofs/RecorderStages.lean
  ==========================================
  **The stages of a click**, each with what it does to the recorder.

  A click is admitted as a step or refused for a reason (`admits_or_refused`).  A refused click
  ends at once and leaves the recorder as it found it: if it acquired the recorder, it releases it
  again.  An admitted one keeps the recorder, adds its step and goes on to tap: the step has the
  next index, lies at the point of the click, and its locator was answered with exactly the element
  under that point.  All later stages leave the steps as they are, so whole clicks are one of these
  two as well (`Admits.click`, `Refused.click`).
-/
import ScreenInspector.Recording.Recorder

namespace ScreenInspector.Recorder

variable {r r' : Recorder} {t : Tree} {v : Evaluator} {asked asked' : Questions} {p : Point}

/-! ### Admitted and refused clicks -/

/-- A recorder that handles a click comes to an element under its point and to an expression for it,
which is still to be confirmed. -/
structure Finds (r : Recorder) (t : Tree) (v : Evaluator) (asked : Questions) (p : Point)
    (n : Node) (l : Locator) (asked' : Questions) : Prop where
  isArmed : r.isArmed = true
  isIdle : r.isBusy = false
  node_eq : t.nodeAt? p = some n
  synthesize_eq : Locator.synthesize v asked n.element = (.ok l, asked')

/-- A click is recorded as a step: the next answer to the expression that was found is the element
and no other, and the step says so at the point of the click. -/
def Admits (r : Recorder) (t : Tree) (v : Evaluator) (asked : Questions) (p : Point)
    (s : RecordedStep) : Prop :=
  ∃ n l asked', r.Finds t v asked p n l asked' ∧
    v.answer asked' l.expression = .ok [n.reference] ∧
    s = ⟨r.stepCount + 1, l.expression, .click, p⟩

/-- Why a click is not recorded, as its outcome tells. -/
inductive Refused (r : Recorder) (t : Tree) (v : Evaluator) (asked : Questions) (p : Point) :
    ClickOutcome → Prop
  | disarmed (isArmed : r.isArmed = false) : Refused r t v asked p .ignored
  | busy (isBusy : r.isBusy = true) : Refused r t v asked p .ignored
  | missed (isArmed : r.isArmed = true) (isIdle : r.isBusy = false)
      (nodeAt?_eq : t.nodeAt? p = none) : Refused r t v asked p (.noElement p)
  | notFound {n : Node} {e : InspectionError} (isArmed : r.isArmed = true)
      (isIdle : r.isBusy = false) (node_eq : t.nodeAt? p = some n)
      (synthesize_eq : (Locator.synthesize v asked n.element).1 = .error e) :
      Refused r t v asked p (.failed e)
  | notAnswered {n : Node} {l : Locator} {asked' : Questions} {e : InspectionError}
      (finds : r.Finds t v asked p n l asked')
      (answer_eq : v.answer asked' l.expression = .error e) :
      Refused r t v asked p (.failed e)
  | unmatched {n : Node} {l : Locator} {asked' : Questions}
      (finds : r.Finds t v asked p n l asked')
      (answer_eq : v.answer asked' l.expression = .ok []) :
      Refused r t v asked p (.failed (.unmatched l.expression))
  | elsewhere {n : Node} {l : Locator} {asked' : Questions} {other : String}
      (finds : r.Finds t v asked p n l asked')
      (answer_eq : v.answer asked' l.expression = .ok [other]) (ne : other ≠ n.reference) :
      Refused r t v asked p (.failed (.ambiguous l.expression 1))
  | several {n : Node} {l : Locator} {asked' : Questions} {found : List String}
      (finds : r.Finds t v asked p n l asked')
      (answer_eq : v.answer asked' l.expression = .ok found) (lt : 1 < found.length) :
      Refused r t v asked p (.failed (.ambiguous l.expression found.length))

/-- **Every click is admitted or refused.** -/
theorem admits_or_refused (r : Recorder) (t : Tree) (v : Evaluator) (asked : Questions)
    (p : Point) : (∃ s, r.Admits t v asked p s) ∨ ∃ outcome, r.Refused t v asked p outcome := by
  cases harmed : r.isArmed with
  | false => exact Or.inr ⟨_, .disarmed harmed⟩
  | true =>
    cases hidle : r.isBusy with
    | true => exact Or.inr ⟨_, .busy hidle⟩
    | false =>
      cases hnode : t.nodeAt? p with
      | none => exact Or.inr ⟨_, .missed harmed hidle hnode⟩
      | some n =>
        cases hsynthesize : Locator.synthesize v asked n.element with
        | mk result later =>
          cases result with
          | error e => exact Or.inr ⟨_, .notFound harmed hidle hnode (by rw [hsynthesize])⟩
          | ok l =>
            have hfinds : r.Finds t v asked p n l later := ⟨harmed, hidle, hnode, hsynthesize⟩
            cases hanswer : v.answer later l.expression with
            | error e => exact Or.inr ⟨_, .notAnswered hfinds hanswer⟩
            | ok found =>
              rcases found with _ | ⟨only, _ | ⟨second, rest⟩⟩
              · exact Or.inr ⟨_, .unmatched hfinds hanswer⟩
              · by_cases honly : only = n.reference
                · subst honly
                  exact Or.inl ⟨_, n, l, later, hfinds, hanswer, rfl⟩
                · exact Or.inr ⟨_, .elsewhere hfinds hanswer honly⟩
              · exact Or.inr ⟨_, .several hfinds hanswer (by simp)⟩

/-! ### Acquiring and releasing -/

theorem acquire?_of_busy (h : r.isBusy = true) : r.acquire? = none :=
  if_pos h

theorem acquire?_of_idle (h : r.isBusy = false) : r.acquire? = some r.acquired := by
  rw [acquire?, h]
  rfl

/-- What is acquired and released is as it was. -/
theorem released_acquired (h : r.isBusy = false) : r.acquired.released = r := by
  simp only [acquired, released, ← h]

/-- A click that acquired the recorder and released it leaves its step alone. -/
theorem released_push_acquired (s : RecordedStep) :
    (r.acquired.push s).released = (r.push s).released := rfl

/-! ### Starting -/

theorem start_of_busy (h : r.isArmed = false ∨ r.isBusy = true) :
    r.start t v asked p = (.ended .ignored, r, asked) := by
  rw [start]
  cases harmed : r.isArmed with
  | false => rfl
  | true =>
    have hbusy : r.isBusy = true := by simpa [harmed] using h
    rw [acquire?_of_busy hbusy]
    rfl

/-- An idle recorder is acquired, and released again unless there is a step. -/
theorem start_of_ready (harmed : r.isArmed = true) (hidle : r.isBusy = false) :
    r.start t v asked p =
      match t.nodeAt? p with
      | none => (.ended (.noElement p), r, asked)
      | some n =>
        match locate v asked n.element with
        | (.error e, asked) => (.ended (.failed e), r, asked)
        | (.ok expression, asked) =>
          (.tapping ⟨r.stepCount + 1, expression, .click, p⟩,
            r.acquired.push ⟨r.stepCount + 1, expression, .click, p⟩, asked) := by
  rw [start, harmed, acquire?_of_idle hidle]
  simp only [released_acquired hidle]
  rfl

/-- A click that finds an expression goes on with the answer to one more question. -/
theorem Finds.start {n : Node} {l : Locator} (h : r.Finds t v asked p n l asked') :
    r.start t v asked p =
      match (Locator.confirm v asked' l.expression).1 with
      | .error e => (.ended (.failed e), r, l.expression :: asked')
      | .ok reference =>
        if reference = n.reference then
          (.tapping ⟨r.stepCount + 1, l.expression, .click, p⟩,
            r.acquired.push ⟨r.stepCount + 1, l.expression, .click, p⟩, l.expression :: asked')
        else (.ended (.failed (.ambiguous l.expression 1)), r, l.expression :: asked') := by
  have hasked : (Locator.confirm v asked' l.expression).2 = l.expression :: asked' := rfl
  rw [start_of_ready h.isArmed h.isIdle, h.node_eq]
  simp only [locate, h.synthesize_eq]
  generalize Locator.confirm v asked' l.expression = confirmed at hasked
  obtain ⟨result, later⟩ := confirmed
  obtain rfl : later = l.expression :: asked' := hasked
  cases result with
  | error e => rfl
  | ok reference =>
    by_cases hreference : reference = n.reference
    · simp only [hreference, Node.reference, if_true]
    · have helement : reference ≠ n.element.reference := hreference
      simp only [if_neg hreference, if_neg helement]

/-- An admitted click goes on to tap, and the recorder stays with it and has its step. -/
theorem Admits.start {s : RecordedStep} (h : r.Admits t v asked p s) :
    ∃ later, r.start t v asked p = (.tapping s, r.acquired.push s, later) := by
  obtain ⟨n, l, asked', hfinds, hanswer, rfl⟩ := h
  refine ⟨l.expression :: asked', ?_⟩
  rw [hfinds.start]
  simp [Locator.confirm, hanswer]

/-- A refused click ends at once and leaves the recorder as it found it. -/
theorem Refused.start {outcome : ClickOutcome} (h : r.Refused t v asked p outcome) :
    ∃ later, r.start t v asked p = (.ended outcome, r, later) := by
  cases h with
  | disarmed harmed => exact ⟨asked, start_of_busy (Or.inl harmed)⟩
  | busy hbusy => exact ⟨asked, start_of_busy (Or.inr hbusy)⟩
  | missed harmed hidle hnode =>
    rw [start_of_ready harmed hidle, hnode]
    exact ⟨asked, rfl⟩
  | @notFound n e harmed hidle hnode hsynthesize =>
    rw [start_of_ready harmed hidle, hnode]
    revert hsynthesize
    simp only [locate]
    obtain ⟨result, later⟩ := Locator.synthesize v asked n.element
    rintro rfl
    exact ⟨later, rfl⟩
  | notAnswered hfinds hanswer =>
    rw [hfinds.start, Locator.confirm, hanswer]
    exact ⟨_, rfl⟩
  | unmatched hfinds hanswer =>
    rw [hfinds.start, Locator.confirm, hanswer]
    exact ⟨_, rfl⟩
  | elsewhere hfinds hanswer hne =>
    rw [hfinds.start, Locator.confirm, hanswer]
    exact ⟨_, if_neg hne⟩
  | @several n l asked' found hfinds hanswer hlong =>
    rw [hfinds.start, Locator.confirm, hanswer]
    rcases found with _ | ⟨only, _ | ⟨second, rest⟩⟩
    · simp at hlong
    · simp at hlong
    · exact ⟨_, rfl⟩

theorem Refused.step?_eq {outcome : ClickOutcome} (h : r.Refused t v asked p outcome) :
    outcome.step? = none := by
  cases h <;> rfl

theorem Refused.ne_ignored {outcome : ClickOutcome} (h : r.Refused t v asked p outcome)
    (harmed : r.isArmed = true) (hidle : r.isBusy = false) : outcome ≠ .ignored := by
  rintro rfl
  cases h with
  | disarmed harmed' => simp [harmed] at harmed'
  | busy hbusy => simp [hidle] at hbusy

/-- **What an idle recorder makes of a click**: it ends without a step and leaves the recorder as it
found it, or it acquires the recorder, records a step for the element under the point and goes on to
tap. -/
theorem start_of_idle (harmed : r.isArmed = true) (hidle : r.isBusy = false) (t : Tree)
    (v : Evaluator) (asked : Questions) (p : Point) :
    (∃ outcome, outcome ≠ .ignored ∧ outcome.step? = none ∧
      (r.start t v asked p).1 = .ended outcome ∧ (r.start t v asked p).2.1 = r) ∨
    ∃ n expression, t.nodeAt? p = some n ∧
      (∃ asked, v.answer asked expression = .ok [n.reference]) ∧
      (r.start t v asked p).1 = .tapping ⟨r.stepCount + 1, expression, .click, p⟩ ∧
      (r.start t v asked p).2.1 = r.acquired.push ⟨r.stepCount + 1, expression, .click, p⟩ := by
  rcases r.admits_or_refused t v asked p with ⟨s, hadmits⟩ | ⟨outcome, hrefused⟩
  · obtain ⟨later, hstart⟩ := hadmits.start
    obtain ⟨n, l, asked', hfinds, hanswer, rfl⟩ := hadmits
    rw [hstart]
    exact Or.inr ⟨n, l.expression, hfinds.node_eq, ⟨asked', hanswer⟩, rfl, rfl⟩
  · obtain ⟨later, hstart⟩ := hrefused.start
    exact Or.inl ⟨outcome, hrefused.ne_ignored harmed hidle, hrefused.step?_eq, by rw [hstart],
      by rw [hstart]⟩

/-- **A click is ignored iff the recorder is busy or not armed.** -/
theorem start_ignored_iff :
    (r.start t v asked p).1 = .ended .ignored ↔ r.isArmed = false ∨ r.isBusy = true := by
  constructor
  · intro h
    cases harmed : r.isArmed with
    | false => exact Or.inl rfl
    | true =>
      cases hidle : r.isBusy with
      | true => exact Or.inr rfl
      | false =>
        rcases start_of_idle harmed hidle t v asked p with
          ⟨outcome, hne, -, hstart, -⟩ | ⟨n, expression, -, -, hstart, -⟩
        · rw [h] at hstart
          exact absurd (ClickStart.ended.inj hstart).symm hne
        · rw [h] at hstart
          exact ClickStart.noConfusion hstart
  · intro h
    rw [start_of_busy h]

/-! ### Whole clicks -/

/-- What a click with a step comes to, by the answer to its tap. -/
def outcomeOfTap (s : RecordedStep) : Except InspectionError Unit → ClickOutcome
  | .ok () => .recorded s
  | .error e => .tapFailed s e.asChannelFailure

theorem finish_eq (s : RecordedStep) (answer : Except InspectionError Unit) :
    r.finish s answer = (outcomeOfTap s answer, r.released) := by
  cases answer with
  | error e => rfl
  | ok u => rfl

section Clicks

variable {σ : Type} (d : Device σ) (c : Connection σ)

/-- An admitted click records its step and taps once, and the recorder is released whatever the
answer. -/
theorem Admits.click {s : RecordedStep} (h : r.Admits t v asked p s) :
    ∃ later, r.click d t v asked p c =
      (outcomeOfTap s (c.tap d p).1, (r.push s).released, later, (c.tap d p).2) := by
  obtain ⟨later, hstart⟩ := h.start
  refine ⟨later, ?_⟩
  rw [Recorder.click, hstart]
  simp only [finish_eq, released_push_acquired]

theorem Refused.click {outcome : ClickOutcome} (h : r.Refused t v asked p outcome) :
    ∃ later, r.click d t v asked p c = (outcome, r, later, c) := by
  obtain ⟨later, hstart⟩ := h.start
  refine ⟨later, ?_⟩
  rw [Recorder.click, hstart]

/-- **What a whole click on an idle recorder does**: it ends without a step, or it records a step
and taps once at its point, and the recorder is idle again whatever the answer. -/
theorem click_cases (hidle : r.isBusy = false) (t : Tree) (v : Evaluator) (asked : Questions)
    (p : Point) :
    (∃ outcome asked', outcome.step? = none ∧ (r.isArmed = true → outcome ≠ .ignored) ∧
      r.click d t v asked p c = (outcome, r, asked', c)) ∨
    ∃ n s asked', t.nodeAt? p = some n ∧ (∃ asked, v.answer asked s.locator = .ok [n.reference]) ∧
      s.index = r.stepCount + 1 ∧ s.point = p ∧
      ((∃ e, (d.tap p c.state).1 = .error e ∧ r.click d t v asked p c =
          (.tapFailed s e.asChannelFailure, (r.push s).released, asked', (c.tap d p).2)) ∨
        r.click d t v asked p c = (.recorded s, (r.push s).released, asked', (c.tap d p).2)) := by
  rcases r.admits_or_refused t v asked p with ⟨s, hadmits⟩ | ⟨outcome, hrefused⟩
  · obtain ⟨later, hclick⟩ := hadmits.click d c
    obtain ⟨n, l, asked', hfinds, hanswer, rfl⟩ := hadmits
    refine Or.inr ⟨n, ⟨r.stepCount + 1, l.expression, .click, p⟩, later, hfinds.node_eq,
      ⟨asked', hanswer⟩, rfl, rfl, ?_⟩
    have htap : (c.tap d p).1 = (d.tap p c.state).1 := rfl
    rw [hclick, htap]
    cases (d.tap p c.state).1 with
    | error e => exact Or.inl ⟨e, rfl, rfl⟩
    | ok u => exact Or.inr rfl
  · obtain ⟨later, hclick⟩ := hrefused.click d c
    exact Or.inl ⟨outcome, later, hrefused.step?_eq, fun harmed => hrefused.ne_ignored harmed hidle,
      hclick⟩

/-- A recorder that is armed and idle ignores no click. -/
theorem click_ne_ignored (harmed : r.isArmed = true) (hidle : r.isBusy = false) (t : Tree)
    (v : Evaluator) (asked : Questions) (p : Point) :
    (r.click d t v asked p c).1 ≠ .ignored := by
  rcases click_cases d c hidle t v asked p with
    ⟨outcome, asked', -, hne, hclick⟩ | ⟨n, s, asked', -, -, -, -, ⟨e, -, hclick⟩ | hclick⟩
  · rw [hclick]
    exact hne harmed
  · rw [hclick]
    simp
  · rw [hclick]
    simp

end Clicks

/-! ### Well-formed recorders -/

/-- The count and the indices of a recorder agree with its steps. -/
structure IsCounted (r : Recorder) : Prop where
  stepCount_eq : r.stepCount = r.steps.length
  index_eq : ∀ i s, r.steps[i]? = some s → s.index = i + 1

theorem isCounted_new (isArmed : Bool) : ({ isArmed } : Recorder).IsCounted :=
  ⟨rfl, fun _ _ h => by simp at h⟩

theorem IsCounted.push {s : RecordedStep} (h : r.IsCounted) (hindex : s.index = r.stepCount + 1) :
    (r.push s).IsCounted := by
  constructor
  · simp [Recorder.push, h.stepCount_eq]
  · intro i s' hs'
    simp only [Recorder.push] at hs'
    rcases Nat.lt_trichotomy i r.steps.length with hlt | rfl | hgt
    · rw [List.getElem?_append_left hlt] at hs'
      exact h.index_eq i s' hs'
    · rw [List.getElem?_concat_length] at hs'
      rw [← Option.some.inj hs', hindex, h.stepCount_eq]
    · rw [List.getElem?_eq_none (by simp; omega)] at hs'
      exact absurd hs' (by simp)

/-- The indices of the steps are the numbers from 1. -/
theorem IsCounted.map_index (h : r.IsCounted) :
    r.steps.map RecordedStep.index = List.range' 1 r.steps.length := by
  apply List.ext_getElem?
  intro k
  rw [List.getElem?_map]
  cases hk : r.steps[k]? with
  | none =>
    rw [List.getElem?_eq_none_iff] at hk
    rw [List.getElem?_eq_none (by simpa using hk)]
    rfl
  | some s =>
    obtain ⟨hlt, -⟩ := List.getElem?_eq_some_iff.mp hk
    rw [List.getElem?_range' hlt, Option.map_some, h.index_eq k s hk]
    simp [Nat.add_comm]

theorem IsCounted.acquired (h : r.IsCounted) : r.acquired.IsCounted :=
  ⟨h.stepCount_eq, h.index_eq⟩

theorem IsCounted.released (h : r.IsCounted) : r.released.IsCounted :=
  ⟨h.stepCount_eq, h.index_eq⟩

@[simp] theorem steps_acquired : r.acquired.steps = r.steps := rfl

@[simp] theorem steps_push (s : RecordedStep) : (r.push s).steps = r.steps ++ [s] := rfl

@[simp] theorem steps_released : r.released.steps = r.steps := rfl

@[simp] theorem isBusy_released : r.released.isBusy = false := rfl

@[simp] theorem isArmed_released : r.released.isArmed = r.isArmed := rfl

end ScreenInspector.Recorder
