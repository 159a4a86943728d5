/-
  ScreenInspector/Proofs/ClickwiseRecording.lean
  ==============================================
  **Offline recording goes click by click.**

  One recorder and one evaluator serve all clicks of a recording.  Still a click comes to the same
  as it would alone (`Tree.pointed`): the tree does not change, the evaluator gives the same answers
  whatever it was asked before, and of the recorder a click needs the number of steps and nothing
  else, since every click leaves it armed and free (`click_cases_pointed`).

  So the failures of a recording are those of its clicks with their positions, and if there are none,
  its steps are those of its clicks with their indices (`clickAll_eq`, by induction on the points).
  What is said about two recordings one after the other follows from these two lists.
-/
import ScreenInspector.Proofs.OfflineRecording

namespace ScreenInspector

/-- What a click comes to by itself: a locator for the element under the point, or why there is
none. -/
def Tree.pointed (t : Tree) (p : Point) : Except ClickFailure String :=
  match t.nodeAt? p with
  | none => .error (.noElement p)
  | some n =>
    match (Recorder.locate t.evaluator [] n.element).1 with
    | .error e => .error (.because e)
    | .ok expression => .ok expression

/-- The failed clicks on a tree, the first click of all having the given position. -/
def Tree.failedClicks (t : Tree) (position : Nat) (points : List Point) : List FailedClick :=
  (points.zipIdx position).filterMap fun x =>
    match t.pointed x.1 with
    | .error failure => some ⟨x.2, failure⟩
    | .ok _ => none

/-- The steps of clicks on a tree, if none of them failed. -/
def Tree.clickSteps (t : Tree) (position : Nat) (points : List Point) : List RecordedStep :=
  (points.zipIdx position).filterMap fun x =>
    match t.pointed x.1 with
    | .error _ => none
    | .ok expression => some ⟨x.2, expression, .click, x.1⟩

/-- A step that is recorded after so many others. -/
def RecordedStep.after (count : Nat) (s : RecordedStep) : RecordedStep :=
  { s with index := count + s.index }

variable {t : Tree} {p : Point} {points : List Point} {r : Recorder}

/-! ### Lists of clicks -/

namespace Tree

theorem failedClicks_append (t : Tree) (position : Nat) (ps qs : List Point) :
    t.failedClicks position (ps ++ qs) =
      t.failedClicks position ps ++ t.failedClicks (position + ps.length) qs := by
  rw [failedClicks, List.zipIdx_append, List.filterMap_append]
  rfl

theorem clickSteps_append (t : Tree) (position : Nat) (ps qs : List Point) :
    t.clickSteps position (ps ++ qs) =
      t.clickSteps position ps ++ t.clickSteps (position + ps.length) qs := by
  rw [clickSteps, List.zipIdx_append, List.filterMap_append]
  rfl

/-- Steps behind others have the same locators and points. -/
theorem clickSteps_add (t : Tree) (count position : Nat) (points : List Point) :
    t.clickSteps (count + position) points =
      (t.clickSteps position points).map (RecordedStep.after count) := by
  induction points generalizing position with
  | nil => rfl
  | cons p rest ih =>
    have hrest := ih (position + 1)
    simp only [clickSteps, List.zipIdx_cons, List.filterMap_cons, Nat.add_assoc] at hrest ⊢
    cases t.pointed p with
    | error failure => exact hrest
    | ok expression => exact congrArg _ hrest

theorem failedClicks_eq_nil_iff {position : Nat} : t.failedClicks position points = [] ↔
    ∀ p ∈ points, ∃ expression, t.pointed p = .ok expression := by
  induction points generalizing position with
  | nil => simp [failedClicks]
  | cons p rest ih =>
    have hrest := @ih (position + 1)
    simp only [failedClicks, List.zipIdx_cons, List.filterMap_cons, List.forall_mem_cons]
      at hrest ⊢
    cases t.pointed p with
    | error failure => simp
    | ok expression => simpa using hrest

/-- Where no click fails, there is one step for each, with its index and its point. -/
theorem clickSteps_of_none (t : Tree) {position : Nat} {points : List Point}
    (hnone : ∀ p ∈ points, ∃ expression, t.pointed p = .ok expression) :
    (t.clickSteps position points).map RecordedStep.point = points ∧
      (t.clickSteps position points).map RecordedStep.index =
        List.range' position points.length := by
  induction points generalizing position with
  | nil => exact ⟨rfl, rfl⟩
  | cons p rest ih =>
    obtain ⟨⟨expression, hpointed⟩, hrest⟩ := List.forall_mem_cons.mp hnone
    obtain ⟨hpoints, hindices⟩ := @ih (position + 1) hrest
    have hcons : t.clickSteps position (p :: rest) =
        ⟨position, expression, .click, p⟩ :: t.clickSteps (position + 1) rest := by
      simp only [clickSteps, List.zipIdx_cons, List.filterMap_cons, hpointed]
    rw [hcons, List.map_cons, List.map_cons, hpoints, hindices, List.length_cons,
      List.range'_succ]
    exact ⟨rfl, rfl⟩

theorem mem_failedClicks_iff {position : Nat} {f : FailedClick} :
    f ∈ t.failedClicks position points ↔ ∃ i p, points[i]? = some p ∧
      f.position = position + i ∧ t.pointed p = .error f.failure := by
  rw [failedClicks, List.mem_filterMap]
  constructor
  · rintro ⟨⟨p, j⟩, hmem, hf⟩
    obtain ⟨hle, hp⟩ := List.mem_zipIdx_iff_le_and_getElem?_sub.mp hmem
    dsimp only at hf hle hp
    cases hpointed : t.pointed p with
    | error failure =>
      rw [hpointed] at hf
      obtain rfl := Option.some.inj hf
      exact ⟨j - position, p, hp, (Nat.add_sub_cancel' hle).symm, hpointed⟩
    | ok expression =>
      rw [hpointed] at hf
      cases hf
  · rintro ⟨i, p, hp, hposition, hpointed⟩
    have hmem : (p, position + i) ∈ points.zipIdx position := by
      apply List.mem_zipIdx_iff_le_and_getElem?_sub.mpr
      exact ⟨Nat.le_add_right _ _, by rwa [Nat.add_sub_cancel_left]⟩
    refine ⟨(p, position + i), hmem, ?_⟩
    rw [hpointed, ← hposition]

/-- Failures are listed in the order of the clicks. -/
theorem pairwise_failedClicks (t : Tree) (position : Nat) (points : List Point) :
    (t.failedClicks position points).Pairwise fun f g => f.position < g.position := by
  induction points generalizing position with
  | nil => exact List.Pairwise.nil
  | cons p rest ih =>
    have hrest := ih (position + 1)
    rw [← List.singleton_append, failedClicks_append, List.pairwise_append]
    refine ⟨?_, hrest, ?_⟩
    · cases hpointed : t.pointed p with
      | error failure => simp [failedClicks, hpointed]
      | ok expression => simp [failedClicks, hpointed]
    · intro f hf g hg
      obtain ⟨i, q, hq, hposition, -⟩ := mem_failedClicks_iff.mp hf
      obtain ⟨j, q', -, hposition', -⟩ := mem_failedClicks_iff.mp hg
      have hi : i < [p].length := (List.getElem?_eq_some_iff.mp hq).1
      omega

end Tree

/-! ### Clicks by themselves -/

theorem Tree.pointed_ne_ignored (t : Tree) (p : Point) : t.pointed p ≠ .error .ignored := by
  unfold pointed
  split
  · simp
  · split
    · simp
    · simp

namespace Recorder

/-- **A click comes to what it does alone**: it fails and leaves the recorder as it is, or it is
recorded as the next step. -/
theorem click_cases_pointed (harmed : r.isArmed = true) (hidle : r.isBusy = false) (t : Tree)
    (asked : Questions) (p : Point) :
    (∃ failure outcome later c, t.pointed p = .error failure ∧
      ClickFailure.ofOutcome? outcome = some failure ∧
      r.click Device.idle t t.evaluator asked p (.opened ()) = (outcome, r, later, c)) ∨
    ∃ expression later c, t.pointed p = .ok expression ∧
      r.click Device.idle t t.evaluator asked p (.opened ()) =
        (.recorded ⟨r.stepCount + 1, expression, .click, p⟩,
          (r.push ⟨r.stepCount + 1, expression, .click, p⟩).released, later, c) := by
  rw [click, start_of_ready harmed hidle, Tree.pointed]
  cases hnode : t.nodeAt? p with
  | none => exact Or.inl ⟨_, _, _, _, rfl, rfl, rfl⟩
  | some n =>
    have hlocate := locate_alike (Evaluator.isConsistent_ofSource t.source) [] asked n.element
    dsimp only [Tree.evaluator]
    rw [hlocate]
    generalize locate (Evaluator.ofSource t.source) asked n.element = located
    obtain ⟨result, later⟩ := located
    cases result with
    | error e => exact Or.inl ⟨_, _, _, _, rfl, rfl, rfl⟩
    | ok expression => exact Or.inr ⟨expression, _, _, rfl, rfl⟩

/-! ### All clicks -/

/-- **All clicks one after the other**: the failures are those of the single clicks, and so are the
steps, if there is no failure. -/
theorem clickAll_eq (harmed : r.isArmed = true) (hidle : r.isBusy = false) (t : Tree)
    (position : Nat) (asked : Questions) (points : List Point) :
    (clickAll t t.evaluator position asked r points).1 = t.failedClicks position points ∧
      (t.failedClicks position points = [] →
        (clickAll t t.evaluator position asked r points).2.steps =
          r.steps ++ t.clickSteps (r.stepCount + 1) points) := by
  induction points generalizing r position asked with
  | nil => exact ⟨rfl, fun _ => (List.append_nil _).symm⟩
  | cons p rest ih =>
    rw [clickAll]
    rcases click_cases_pointed harmed hidle t asked p with
      ⟨failure, outcome, later, c, hpointed, houtcome, hclick⟩ |
      ⟨expression, later, c, hpointed, hclick⟩
    · obtain ⟨hfailures, -⟩ := ih harmed hidle (position + 1) later
      have hcons : t.failedClicks position (p :: rest) =
          ⟨position, failure⟩ :: t.failedClicks (position + 1) rest := by
        simp only [Tree.failedClicks, List.zipIdx_cons, List.filterMap_cons, hpointed]
      simp only [hclick, houtcome, hfailures, hcons]
      exact ⟨trivial, fun h => absurd h (List.cons_ne_nil _ _)⟩
    · have hnext := @ih (r.push ⟨r.stepCount + 1, expression, .click, p⟩).released harmed rfl
        (position + 1) later
      obtain ⟨hfailures, hsteps⟩ := hnext
      have hcons : t.failedClicks position (p :: rest) = t.failedClicks (position + 1) rest := by
        simp only [Tree.failedClicks, List.zipIdx_cons, List.filterMap_cons, hpointed]
      have hstep : t.clickSteps (r.stepCount + 1) (p :: rest) =
          ⟨r.stepCount + 1, expression, .click, p⟩ ::
            t.clickSteps (r.stepCount + 1 + 1) rest := by
        simp only [Tree.clickSteps, List.zipIdx_cons, List.filterMap_cons, hpointed]
      simp only [hclick, ClickFailure.ofOutcome?, hfailures, hcons, hstep]
      refine ⟨trivial, fun hnone => ?_⟩
      rw [hsteps hnone]
      exact List.append_assoc _ _ _

theorem offline_eq_ok_iff : (∃ r, offline t points = .ok r) ↔ t.failedClicks 1 points = [] := by
  have hfailures := (clickAll_eq (r := { isArmed := true }) rfl rfl t 1 [] points).1
  rw [← hfailures, offline]
  split
  next r heq => simp [heq]
  next failures r' hne heq =>
    rw [heq]
    simpa using hne

theorem steps_of_offline (h : offline t points = .ok r) : r.steps = t.clickSteps 1 points := by
  have hnone := offline_eq_ok_iff.mp ⟨r, h⟩
  have hsteps := (clickAll_eq (r := { isArmed := true }) rfl rfl t 1 [] points).2 hnone
  rw [offline] at h
  split at h
  next r' heq =>
    obtain rfl := Except.ok.inj h
    rw [heq] at hsteps
    exact hsteps
  next => cases h

theorem offline_eq_error_iff {failures : List FailedClick} : offline t points = .error failures ↔
    failures = t.failedClicks 1 points ∧ failures ≠ [] := by
  have hfailures := (clickAll_eq (r := { isArmed := true }) rfl rfl t 1 [] points).1
  rw [← hfailures, offline]
  split
  next r heq =>
    rw [heq]
    constructor
    · intro h
      cases h
    · rintro ⟨rfl, hne⟩
      exact absurd rfl hne
  next failures' r' hne heq =>
    rw [heq, Except.error.injEq, eq_comm, iff_self_and]
    rintro rfl
    exact hne

/-- A click alone is recorded, or it is the first of all clicks and fails. -/
theorem offline_singleton (t : Tree) (p : Point) :
    (∃ r, offline t [p] = .ok r) ∨ ∃ failure, offline t [p] = .error [⟨1, failure⟩] := by
  rcases fails_or_ok (t.pointed p) with ⟨failure, hpointed⟩ | hpointed
  · right
    refine ⟨failure, offline_eq_error_iff.mpr ⟨?_, List.cons_ne_nil _ _⟩⟩
    simp [Tree.failedClicks, hpointed]
  · left
    apply offline_eq_ok_iff.mpr
    rw [Tree.failedClicks_eq_nil_iff, List.forall_mem_singleton]
    exact hpointed

theorem offline_singleton_eq_error_iff {failure : ClickFailure} :
    offline t [p] = .error [⟨1, failure⟩] ↔ t.pointed p = .error failure := by
  rw [offline_eq_error_iff]
  cases hpointed : t.pointed p with
  | error other => simp [Tree.failedClicks, hpointed, eq_comm]
  | ok expression => simp [Tree.failedClicks, hpointed]

/-! ### The main result -/

/-- **Offline recording is clickwise**, on every tree and for all lists of points.  Two lists one
after the other are recorded iff both are recorded alone, and then the steps are those of the first
and behind them those of the second, with indices that count on.  What is recorded has one step for
each point, in order.  What is not has exactly the failing clicks as failures, in ascending order,
each at its position and for the reason that it fails alone, and a click is never ignored. -/
theorem offline_clickwise (t : Tree) (ps qs : List Point) :
    ((∃ r, offline t (ps ++ qs) = .ok r) ↔
      (∃ r, offline t ps = .ok r) ∧ ∃ r, offline t qs = .ok r) ∧
    (∀ r first second, offline t (ps ++ qs) = .ok r → offline t ps = .ok first →
      offline t qs = .ok second →
        r.steps = first.steps ++ second.steps.map (RecordedStep.after ps.length)) ∧
    (∀ r, offline t ps = .ok r → r.steps.map RecordedStep.point = ps ∧
      r.steps.map RecordedStep.index = List.range' 1 ps.length) ∧
    (∀ p, (∃ r, offline t [p] = .ok r) ∨ ∃ failure, offline t [p] = .error [⟨1, failure⟩]) ∧
    ∀ failures, offline t ps = .error failures →
      failures ≠ [] ∧ (failures.Pairwise fun f g => f.position < g.position) ∧
      (∀ f, f ∈ failures ↔ ∃ i p, ps[i]? = some p ∧ f.position = 1 + i ∧
        offline t [p] = .error [⟨1, f.failure⟩]) ∧
      ∀ f ∈ failures, f.failure ≠ .ignored := by
  refine ⟨?_, ?_, ?_, offline_singleton t, ?_⟩
  · simp only [offline_eq_ok_iff, Tree.failedClicks_eq_nil_iff, List.forall_mem_append]
  · intro r first second hr hfirst hsecond
    rw [steps_of_offline hr, steps_of_offline hfirst, steps_of_offline hsecond,
      Tree.clickSteps_append, Nat.add_comm 1, Tree.clickSteps_add]
  · intro r hr
    rw [steps_of_offline hr]
    exact t.clickSteps_of_none (Tree.failedClicks_eq_nil_iff.mp (offline_eq_ok_iff.mp ⟨r, hr⟩))
  · intro failures hfailures
    obtain ⟨rfl, hne⟩ := offline_eq_error_iff.mp hfailures
    refine ⟨hne, t.pairwise_failedClicks 1 ps, ?_, ?_⟩
    · intro f
      simp only [Tree.mem_failedClicks_iff, offline_singleton_eq_error_iff]
    · intro f hf hignored
      obtain ⟨i, p, -, -, hpointed⟩ := Tree.mem_failedClicks_iff.mp hf
      rw [hignored] at hpointed
      exact t.pointed_ne_ignored p hpointed

end Recorder

end ScreenInspector
