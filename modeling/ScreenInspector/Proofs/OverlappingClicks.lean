/-
  ScreenInspector/Proofs/OverlappingClicks.lean
  =============================================
  **Clicks that overlap on one recorder.**

  Several clicks may be under way at once, each at its own stage.  A schedule is a list of actions:
  a click starts, its tap is answered, the device settles after it, or it is given up while it
  waits.  Before its tap a click waits for nothing, so its start is one action: it acquires the
  recorder and, if it comes to no step, releases it.  An action for a click that does not wait for
  it changes nothing, so every list of actions is a schedule and every order of these events is one
  of them.

  The invariant (`Consistent`) joins the flag, the count, the steps and the taps: the recorder is
  busy iff exactly one click waits, the steps are counted from 1, and the taps that went out are
  those of the steps.  `Consistent.perform` is the step of the induction, one case per action;
  `overlapping_clicks` collects what follows for whole schedules.
-/
import ScreenInspector.Proofs.RecorderStages

namespace ScreenInspector

/-! ### Schedules -/

/-- How far a click has come. -/
inductive ClickStage where
  /-- The tap of the step went out and is not answered yet. -/
  | tapping (step : RecordedStep)
  /-- The tap was taken, and the device settles. -/
  | settling (step : RecordedStep)
  | ended (outcome : ClickOutcome)
  | givenUp
deriving Inhabited

/-- The step of a click that waits for its tap or for the device. -/
def ClickStage.pending? : ClickStage → Option RecordedStep
  | .tapping s => some s
  | .settling s => some s
  | _ => none

def ClickStage.isPending (stage : ClickStage) : Bool :=
  stage.pending?.isSome

/-- A click: its stage, and the questions that its evaluator was asked until its tap. -/
structure Click where
  stage : ClickStage
  asked : Questions
deriving Inhabited

/-- A recorder with the clicks that came to it, in the order of their start, and the points of the
taps that went out, in order. -/
structure SharedRecorder where
  recorder : Recorder
  clicks : List Click := []
  taps : List Point := []

/-- What happens next.  Clicks are named by their place in the order of their start. -/
inductive ClickAction where
  | start (t : Tree) (v : Evaluator) (asked : Questions) (p : Point)
  | tapAnswered (click : Nat) (answer : Except InspectionError Unit)
  | settled (click : Nat)
  | givenUp (click : Nat)

namespace SharedRecorder

def opened (isArmed : Bool) : SharedRecorder :=
  { recorder := { isArmed } }

def stage? (w : SharedRecorder) (k : Nat) : Option ClickStage :=
  w.clicks[k]?.map Click.stage

/-- A click passes to another stage. -/
def advance (w : SharedRecorder) (k : Nat) (stage : ClickStage) (recorder : Recorder) :
    SharedRecorder :=
  { w with recorder, clicks := w.clicks.modify k fun click => { click with stage } }

def perform (w : SharedRecorder) : ClickAction → SharedRecorder
  | .start t v asked p =>
    match w.recorder.start t v asked p with
    | (.ended outcome, r, asked) =>
      { w with recorder := r, clicks := w.clicks ++ [⟨.ended outcome, asked⟩] }
    | (.tapping s, r, asked) =>
      { recorder := r, clicks := w.clicks ++ [⟨.tapping s, asked⟩], taps := w.taps ++ [p] }
  | .tapAnswered k answer =>
    match w.stage? k with
    | some (.tapping s) =>
      match w.recorder.tapAnswered s answer with
      | (none, r) => w.advance k (.settling s) r
      | (some outcome, r) => w.advance k (.ended outcome) r
    | _ => w
  | .settled k =>
    match w.stage? k with
    | some (.settling s) =>
      let (outcome, r) := w.recorder.settled s
      w.advance k (.ended outcome) r
    | _ => w
  | .givenUp k =>
    match w.stage? k with
    | some stage => if stage.isPending then w.advance k .givenUp w.recorder.released else w
    | none => w

def run (w : SharedRecorder) (actions : List ClickAction) : SharedRecorder :=
  actions.foldl perform w

def pendingCount (w : SharedRecorder) : Nat :=
  w.clicks.countP fun click => click.stage.isPending

/-! ### What an action does -/

variable {w : SharedRecorder}

/-- A busy recorder ignores a click that starts: nothing is asked and nothing is tapped. -/
theorem perform_start_of_busy (h : w.recorder.isArmed = false ∨ w.recorder.isBusy = true)
    (t : Tree) (v : Evaluator) (asked : Questions) (p : Point) :
    w.perform (.start t v asked p) =
      { w with clicks := w.clicks ++ [⟨.ended .ignored, asked⟩] } := by
  rw [perform, Recorder.start_of_busy h]

/-- **What a start does**: it leaves the recorder and the taps as they are and ends the click at
once, or it acquires an idle recorder, records a step and sends its tap. -/
theorem perform_start_cases (t : Tree) (v : Evaluator) (asked : Questions) (p : Point) :
    (∃ outcome asked', w.perform (.start t v asked p) =
      { w with clicks := w.clicks ++ [⟨.ended outcome, asked'⟩] }) ∨
    ∃ s asked', w.recorder.isArmed = true ∧ w.recorder.isBusy = false ∧
      s.index = w.recorder.stepCount + 1 ∧ s.point = p ∧
      w.perform (.start t v asked p) =
        { recorder := w.recorder.acquired.push s, clicks := w.clicks ++ [⟨.tapping s, asked'⟩],
          taps := w.taps ++ [p] } := by
  by_cases hbusy : w.recorder.isArmed = false ∨ w.recorder.isBusy = true
  · exact Or.inl ⟨.ignored, asked, perform_start_of_busy hbusy t v asked p⟩
  · rw [not_or, Bool.not_eq_false, Bool.not_eq_true] at hbusy
    obtain ⟨harmed, hidle⟩ := hbusy
    rw [perform]
    rcases Recorder.start_of_idle harmed hidle t v asked p with
      ⟨outcome, -, -, hstart, hrecorder⟩ | ⟨n, expression, -, -, hstart, hrecorder⟩
    · revert hstart hrecorder
      cases w.recorder.start t v asked p with
      | mk first rest =>
        rintro rfl hrecorder
        exact Or.inl ⟨outcome, rest.2, by rw [← hrecorder]⟩
    · revert hstart hrecorder
      cases w.recorder.start t v asked p with
      | mk first rest =>
        rintro rfl hrecorder
        exact Or.inr ⟨_, rest.2, harmed, hidle, rfl, rfl, by rw [← hrecorder]⟩

/-- **What any other action does**: nothing, or a click that waits goes on waiting for the device,
or it stops waiting and releases the recorder. -/
theorem perform_other_cases {a : ClickAction} (ha : ∀ t v asked p, a ≠ .start t v asked p) :
    w.perform a = w ∨ ∃ k stage stage', w.stage? k = some stage ∧ stage.isPending = true ∧
      ((stage'.pending? = stage.pending? ∧ w.perform a = w.advance k stage' w.recorder) ∨
       (stage'.isPending = false ∧ w.perform a = w.advance k stage' w.recorder.released)) := by
  cases a with
  | start t v asked p => exact absurd rfl (ha t v asked p)
  | tapAnswered k answer =>
    rw [perform]
    split
    next s hstage =>
      cases answer with
      | ok u => exact Or.inr ⟨k, .tapping s, .settling s, hstage, rfl, Or.inl ⟨rfl, rfl⟩⟩
      | error e =>
        exact Or.inr ⟨k, .tapping s, .ended (.tapFailed s e.asChannelFailure), hstage, rfl,
          Or.inr ⟨rfl, rfl⟩⟩
    next => exact Or.inl rfl
  | settled k =>
    rw [perform]
    split
    next s hstage =>
      exact Or.inr ⟨k, .settling s, .ended (.recorded s), hstage, rfl, Or.inr ⟨rfl, rfl⟩⟩
    next => exact Or.inl rfl
  | givenUp k =>
    rw [perform]
    split
    next stage hstage =>
      by_cases hpending : stage.isPending = true
      · rw [if_pos hpending]
        exact Or.inr ⟨k, stage, .givenUp, hstage, hpending, Or.inr ⟨rfl, rfl⟩⟩
      · rw [if_neg hpending]
        exact Or.inl rfl
    next => exact Or.inl rfl

/-! ### The invariant -/

/-- The flag, the count, the steps, the taps and the stages of the clicks agree. -/
structure Consistent (w : SharedRecorder) : Prop where
  isCounted : w.recorder.IsCounted
  /-- The recorder is busy with the one click that waits. -/
  pendingCount_eq : w.pendingCount = if w.recorder.isBusy then 1 else 0
  taps_eq : w.taps = w.recorder.steps.map RecordedStep.point
  /-- The step of a click that waits is recorded. -/
  pending_mem : ∀ click ∈ w.clicks, ∀ s, click.stage.pending? = some s → s ∈ w.recorder.steps

theorem consistent_opened (isArmed : Bool) : (opened isArmed).Consistent where
  isCounted := Recorder.isCounted_new isArmed
  pendingCount_eq := rfl
  taps_eq := rfl
  pending_mem := fun _ h => absurd h (by simp [opened])

/-- A click that passes to another stage keeps its place among the others. -/
theorem advance_split {k : Nat} {stage : ClickStage} (h : w.stage? k = some stage) :
    ∃ before click after, w.clicks = before ++ click :: after ∧ click.stage = stage ∧
      ∀ stage' r, (w.advance k stage' r).clicks =
        before ++ { click with stage := stage' } :: after := by
  rw [stage?, Option.map_eq_some_iff] at h
  obtain ⟨click, hclick, rfl⟩ := h
  obtain ⟨hk, hget⟩ := List.getElem?_eq_some_iff.mp hclick
  refine ⟨w.clicks.take k, click, w.clicks.drop (k + 1), ?_, rfl, ?_⟩
  · rw [← hget, ← List.drop_eq_getElem_cons hk, List.take_append_drop]
  · intro stage' r
    rw [advance, List.modify_eq_take_cons_drop hk, hget]

/-- Passing to another stage moves a click that waits into the count or out of it. -/
theorem pendingCount_advance (stage' : ClickStage) (r : Recorder) {k : Nat} {stage : ClickStage}
    (h : w.stage? k = some stage) (hpending : stage.isPending = true) :
    0 < w.pendingCount ∧ (w.advance k stage' r).pendingCount =
      w.pendingCount - 1 + if stage'.isPending then 1 else 0 := by
  obtain ⟨before, click, after, hclicks, rfl, hadvance⟩ := advance_split h
  simp only [pendingCount, hclicks, hadvance, List.countP_append, List.countP_cons, hpending,
    if_true]
  omega

/-- After another stage of one click, the steps of those that wait are recorded as before. -/
theorem pending_mem_advance {k : Nat} {stage stage' : ClickStage} {r : Recorder}
    (h : w.stage? k = some stage) (hpending : ∀ s, stage'.pending? = some s → stage.pending? = some s)
    (hmem : ∀ click ∈ w.clicks, ∀ s, click.stage.pending? = some s → s ∈ w.recorder.steps) :
    ∀ click ∈ (w.advance k stage' r).clicks, ∀ s, click.stage.pending? = some s →
      s ∈ w.recorder.steps := by
  obtain ⟨before, click, after, hclicks, rfl, hadvance⟩ := advance_split h
  rw [hclicks] at hmem
  rw [hadvance]
  intro other hother s hs
  rcases List.mem_append.mp hother with hother | hother
  · exact hmem other (List.mem_append_left _ hother) s hs
  · rcases List.mem_cons.mp hother with rfl | hother
    · exact hmem click (List.mem_append_right _ List.mem_cons_self) s (hpending s hs)
    · exact hmem other (List.mem_append_right _ (List.mem_cons_of_mem _ hother)) s hs

theorem Consistent.perform_start (h : w.Consistent) (t : Tree) (v : Evaluator) (asked : Questions)
    (p : Point) : (w.perform (.start t v asked p)).Consistent := by
  rcases w.perform_start_cases t v asked p with
    ⟨outcome, asked', hperform⟩ | ⟨s, asked', -, hidle, hindex, hpoint, hperform⟩
  · rw [hperform]
    refine ⟨h.isCounted, ?_, h.taps_eq, ?_⟩
    · have hcount := h.pendingCount_eq
      simpa [pendingCount, List.countP_append, ClickStage.isPending, ClickStage.pending?] using hcount
    · intro click hclick s hs
      rcases List.mem_append.mp hclick with hclick | hclick
      · exact h.pending_mem click hclick s hs
      · rw [List.mem_singleton.mp hclick] at hs
        exact absurd hs (by simp [ClickStage.pending?])
  · rw [hperform]
    refine ⟨h.isCounted.acquired.push hindex, ?_, ?_, ?_⟩
    · have hcount := h.pendingCount_eq
      rw [hidle, pendingCount] at hcount
      rw [pendingCount, List.countP_append, hcount]
      rfl
    · simp [h.taps_eq, hpoint]
    · intro click hclick s' hs'
      rw [Recorder.steps_push]
      rcases List.mem_append.mp hclick with hclick | hclick
      · exact List.mem_append_left _ (h.pending_mem click hclick s' hs')
      · rw [List.mem_singleton.mp hclick] at hs'
        exact List.mem_append_right _ (List.mem_singleton.mpr (Option.some.inj hs').symm)

theorem Consistent.perform_other (h : w.Consistent) {a : ClickAction}
    (ha : ∀ t v asked p, a ≠ .start t v asked p) : (w.perform a).Consistent := by
  rcases w.perform_other_cases ha with hperform | ⟨k, stage, stage', hstage, hpending, hcases⟩
  · rw [hperform]
    exact h
  have hbusy : w.recorder.isBusy = true ∧ w.pendingCount = 1 := by
    obtain ⟨hpos, -⟩ := w.pendingCount_advance stage' w.recorder hstage hpending
    have hcount := h.pendingCount_eq
    cases hflag : w.recorder.isBusy with
    | true => exact ⟨rfl, by simpa [hflag] using hcount⟩
    | false =>
      rw [hflag] at hcount
      rw [hcount] at hpos
      exact absurd hpos (by decide)
  rcases hcases with ⟨hsame, hperform⟩ | ⟨hends, hperform⟩
  · -- The click goes on waiting, so the recorder stays busy with it.
    have hstill : stage'.isPending = true := by
      rw [ClickStage.isPending, hsame]
      exact hpending
    rw [hperform]
    refine ⟨h.isCounted, ?_, h.taps_eq, ?_⟩
    · rw [(w.pendingCount_advance _ _ hstage hpending).2, hstill, hbusy.2]
      show _ = if w.recorder.isBusy then 1 else 0
      rw [hbusy.1]
      rfl
    · exact w.pending_mem_advance hstage (fun s hs => hsame ▸ hs) h.pending_mem
  · -- It was the one that waited, so nobody waits for the released recorder.
    rw [hperform]
    refine ⟨h.isCounted.released, ?_, h.taps_eq, ?_⟩
    · rw [(w.pendingCount_advance _ _ hstage hpending).2, hends, hbusy.2]
      rfl
    · apply w.pending_mem_advance hstage _ h.pending_mem
      intro s hs
      rw [ClickStage.isPending, hs] at hends
      exact Bool.noConfusion hends

/-- **Every action preserves the invariant.** -/
theorem Consistent.perform (h : w.Consistent) (a : ClickAction) : (w.perform a).Consistent := by
  cases a with
  | start t v asked p => exact h.perform_start t v asked p
  | tapAnswered k answer => exact h.perform_other (by simp)
  | settled k => exact h.perform_other (by simp)
  | givenUp k => exact h.perform_other (by simp)

/-- **Every schedule preserves the invariant.** -/
theorem Consistent.run (h : w.Consistent) (actions : List ClickAction) :
    (w.run actions).Consistent := by
  induction actions generalizing w with
  | nil => exact h
  | cons a rest ih => exact ih (h.perform a)

/-! ### Recorders that are armed, and recorders that are not -/

/-- What an action keeps: whether the recorder is armed, and the steps that it had. -/
theorem perform_keeps (w : SharedRecorder) (a : ClickAction) :
    (w.perform a).recorder.isArmed = w.recorder.isArmed ∧
      w.recorder.steps <+: (w.perform a).recorder.steps := by
  have hother : (∀ t v asked p, a ≠ .start t v asked p) →
      (w.perform a).recorder.isArmed = w.recorder.isArmed ∧
        w.recorder.steps <+: (w.perform a).recorder.steps := by
    intro ha
    rcases w.perform_other_cases ha with hperform | ⟨k, stage, stage', -, -, hcases⟩
    · rw [hperform]
      exact ⟨rfl, List.prefix_refl _⟩
    rcases hcases with ⟨-, hperform⟩ | ⟨-, hperform⟩
    · rw [hperform]
      exact ⟨rfl, List.prefix_refl _⟩
    · rw [hperform]
      exact ⟨rfl, List.prefix_refl _⟩
  cases a with
  | start t v asked p =>
    rcases w.perform_start_cases t v asked p with
      ⟨outcome, asked', hperform⟩ | ⟨s, asked', -, -, -, -, hperform⟩
    · rw [hperform]
      exact ⟨rfl, List.prefix_refl _⟩
    · rw [hperform]
      exact ⟨rfl, List.prefix_append _ _⟩
  | tapAnswered k answer => exact hother (by simp)
  | settled k => exact hother (by simp)
  | givenUp k => exact hother (by simp)

theorem run_keeps (w : SharedRecorder) (actions : List ClickAction) :
    (w.run actions).recorder.isArmed = w.recorder.isArmed ∧
      w.recorder.steps <+: (w.run actions).recorder.steps := by
  induction actions generalizing w with
  | nil => exact ⟨rfl, List.prefix_refl _⟩
  | cons a rest ih =>
    obtain ⟨harmed, hsteps⟩ := w.perform_keeps a
    obtain ⟨harmed', hsteps'⟩ := ih (w.perform a)
    exact ⟨harmed'.trans harmed, hsteps.trans hsteps'⟩

theorem perform_givenUp {k : Nat} {stage : ClickStage} (hstage : w.stage? k = some stage)
    (hpending : stage.isPending = true) :
    (w.perform (.givenUp k)).recorder = w.recorder.released := by
  rw [perform, hstage]
  simp only [hpending, if_true, advance]

/-- On a recorder that is not armed no click comes to wait, and nothing changes. -/
theorem perform_of_disarmed (harmed : w.recorder.isArmed = false) (hnone : w.pendingCount = 0)
    (a : ClickAction) :
    (w.perform a).recorder = w.recorder ∧ (w.perform a).taps = w.taps ∧
      (w.perform a).pendingCount = 0 := by
  have hother : (∀ t v asked p, a ≠ .start t v asked p) → w.perform a = w := by
    intro ha
    rcases w.perform_other_cases ha with hperform | ⟨k, stage, stage', hstage, hpending, -⟩
    · exact hperform
    · obtain ⟨hpos, -⟩ :=
        w.pendingCount_advance stage' w.recorder hstage hpending
      rw [hnone] at hpos
      exact absurd hpos (Nat.lt_irrefl 0)
  cases a with
  | start t v asked p =>
    rw [perform_start_of_busy (Or.inl harmed)]
    refine ⟨rfl, rfl, ?_⟩
    rw [pendingCount] at hnone ⊢
    rw [List.countP_append, hnone]
    rfl
  | tapAnswered k answer => rw [hother (by simp)]; exact ⟨rfl, rfl, hnone⟩
  | settled k => rw [hother (by simp)]; exact ⟨rfl, rfl, hnone⟩
  | givenUp k => rw [hother (by simp)]; exact ⟨rfl, rfl, hnone⟩

theorem run_of_disarmed (harmed : w.recorder.isArmed = false) (hnone : w.pendingCount = 0)
    (actions : List ClickAction) :
    (w.run actions).recorder = w.recorder ∧ (w.run actions).taps = w.taps := by
  induction actions generalizing w with
  | nil => exact ⟨rfl, rfl⟩
  | cons a rest ih =>
    obtain ⟨hrecorder, htaps, hnone'⟩ := perform_of_disarmed harmed hnone a
    obtain ⟨hrecorder', htaps'⟩ := ih (w := w.perform a) (by rw [hrecorder]; exact harmed) hnone'
    exact ⟨hrecorder'.trans hrecorder, htaps'.trans htaps⟩

/-! ### Whole schedules -/

/-- **Overlapping clicks keep a recorder in order**, in every schedule.  At most one click waits, and
the recorder is busy iff one does; a click that starts meanwhile is ignored, asks nothing and
changes nothing; the steps are counted from 1, and the taps that went out are theirs, in order; a
click that is given up leaves its step for good and the recorder open to the next click.  A recorder
that is not armed never changes. -/
theorem overlapping_clicks (actions : List ClickAction) :
    let w := (opened true).run actions
    (w.pendingCount ≤ 1 ∧ (w.recorder.isBusy = true ↔ w.pendingCount = 1)) ∧
    (w.recorder.isBusy = true → ∀ t v asked p, w.perform (.start t v asked p) =
      { w with clicks := w.clicks ++ [⟨.ended .ignored, asked⟩] }) ∧
    (w.recorder.stepCount = w.recorder.steps.length ∧
      ∀ i s, w.recorder.steps[i]? = some s → s.index = i + 1) ∧
    w.taps = w.recorder.steps.map RecordedStep.point ∧
    (∀ k stage s, w.stage? k = some stage → stage.pending? = some s →
      let after := w.perform (.givenUp k)
      (∀ later, s ∈ (after.run later).recorder.steps) ∧ after.recorder.isBusy = false ∧
        ∀ t v asked p, (after.recorder.start t v asked p).1 ≠ .ended .ignored) ∧
    (((opened false).run actions).recorder = (opened false).recorder ∧
      ((opened false).run actions).taps = []) := by
  intro w
  have hconsistent : w.Consistent := (consistent_opened true).run actions
  have harmed : w.recorder.isArmed = true := (run_keeps (opened true) actions).1
  have hcount := hconsistent.pendingCount_eq
  refine ⟨?_, ?_, ?_, hconsistent.taps_eq, ?_, ?_⟩
  · cases hbusy : w.recorder.isBusy with
    | true => simp [hcount, hbusy]
    | false => simp [hcount, hbusy]
  · intro hbusy
    exact perform_start_of_busy (Or.inr hbusy)
  · exact ⟨hconsistent.isCounted.stepCount_eq, hconsistent.isCounted.index_eq⟩
  · intro k stage s hstage hpending after
    have hreleased : after.recorder = w.recorder.released := by
      apply perform_givenUp hstage
      rw [ClickStage.isPending, hpending]
      rfl
    refine ⟨?_, ?_, ?_⟩
    · intro later
      apply (run_keeps after later).2.subset
      rw [hreleased, Recorder.steps_released]
      obtain ⟨before, click, rest, hclicks, rfl, -⟩ := advance_split hstage
      apply hconsistent.pending_mem click _ s hpending
      rw [hclicks]
      exact List.mem_append_right _ List.mem_cons_self
    · rw [hreleased, Recorder.isBusy_released]
    · intro t v asked p hignored
      rw [Recorder.start_ignored_iff, hreleased, Recorder.isArmed_released, harmed,
        Recorder.isBusy_released] at hignored
      rcases hignored with h | h
      · exact Bool.noConfusion h
      · exact Bool.noConfusion h
  · exact run_of_disarmed rfl rfl actions

end SharedRecorder

end ScreenInspector
