/-
  ScreenInspector/Proofs/LocatorSearch.lean
  =========================================
  **What a search for a locator asks, and what it makes of the answers**, whoever gives them.

  An evaluator may answer by the questions asked before, so all that is known of an answer is where
  in the search it was given.  The questions are numbered: number 0 is the base expression, and
  number `i` is the base expression with the position `i`.  A search asks them in order up to some
  last one (`Course`): it goes on after several references to the base expression and after any
  answer to a position that is not the reference alone, and it ends at the first fault, at the first
  answer that is the reference alone, and after as many positions as there were references.

  `refine_course` follows the positions; the base expression comes before them.  If an evaluator
  answers a question always in the same way, the last answer tells two elements apart.
-/
import ScreenInspector.Locator.Synthesis

namespace ScreenInspector

/-- An evaluator that answers an expression in the same way whatever was asked before. -/
def Evaluator.IsConsistent (v : Evaluator) : Prop :=
  ∀ asked asked' expression, v.answer asked expression = v.answer asked' expression

theorem Evaluator.isConsistent_ofSource (source : String) : (ofSource source).IsConsistent :=
  fun _ _ _ => rfl

namespace Locator

/-! ### Questions and answers by number -/

def question (base : String) : Nat → String
  | 0 => base
  | i + 1 => indexed base (i + 1)

/-- The questions asked once so many of a search have been, the last first. -/
def askedBefore (base : String) (asked : Questions) : Nat → Questions
  | 0 => asked
  | i + 1 => question base i :: askedBefore base asked i

/-- The answer to a question of a search after the ones before it. -/
def answerAt (v : Evaluator) (base : String) (asked : Questions) (i : Nat) : Answer :=
  v.answer (askedBefore base asked i) (question base i)

theorem question_of_pos {i : Nat} (base : String) (hi : 0 < i) :
    question base i = indexed base i := by
  cases i with
  | zero => exact absurd hi (Nat.lt_irrefl 0)
  | succ i => rfl

def IsOther (reference : String) (a : Answer) : Prop :=
  ∃ found, a = .ok found ∧ found ≠ [reference]

variable {v : Evaluator} {reference base : String} {asked : Questions}

/-! ### Positions -/

/-- How a search among positions comes to an end at the last one that it tries. -/
inductive Ending (v : Evaluator) (reference base : String) (asked : Questions) (count : Nat) :
    Nat → Except InspectionError Locator → Prop
  | failed {last fault} (answer : answerAt v base asked last = .error fault) :
    Ending v reference base asked count last (.error fault)
  | found {last} (answer : answerAt v base asked last = .ok [reference]) :
    Ending v reference base asked count last (.ok ⟨indexed base last, count, true⟩)
  | exhausted (answer : IsOther reference (answerAt v base asked count)) :
    Ending v reference base asked count count (.error (.ambiguous base count))

/-- **Positions are tried in order** from the `i`-th on, up to a last one that is not behind the
count; no answer before it is the reference alone. -/
theorem refine_course {count left i : Nat} (hi : i + left = count) (hpos : 0 < i) :
    ∃ last, i ≤ last ∧ last ≤ count ∧
      (refine v reference base count (left + 1) i (askedBefore base asked i)).2 =
        askedBefore base asked (last + 1) ∧
      (∀ j, i ≤ j → j < last → IsOther reference (answerAt v base asked j)) ∧
      Ending v reference base asked count last
        (refine v reference base count (left + 1) i (askedBefore base asked i)).1 := by
  have hquestion := question_of_pos base hpos
  have hasked : indexed base i :: askedBefore base asked i = askedBefore base asked (i + 1) := by
    rw [askedBefore, hquestion]
  have hanswer : v.answer (askedBefore base asked i) (indexed base i) =
      answerAt v base asked i := by
    rw [answerAt, hquestion]
  have hnone : ∀ j, i ≤ j → j < i → IsOther reference (answerAt v base asked j) :=
    fun j hj hlt => absurd hlt (Nat.not_lt_of_le hj)
  -- One case for each way in which `refine` goes on from here, the last with a position less left.
  rw [refine, hasked, hanswer]
  cases hcase : answerAt v base asked i with
  | error fault => exact ⟨i, Nat.le_refl i, by omega, rfl, hnone, .failed hcase⟩
  | ok found =>
    dsimp only
    split
    next hfound =>
      subst hfound
      exact ⟨i, Nat.le_refl i, by omega, rfl, hnone, .found hcase⟩
    next hother =>
      have hhere : IsOther reference (answerAt v base asked i) := ⟨found, hcase, hother⟩
      cases left with
      | zero =>
        obtain rfl : i = count := hi
        exact ⟨i, Nat.le_refl i, Nat.le_refl i, rfl, hnone, .exhausted hhere⟩
      | succ left =>
        have hleft : i + 1 + left = count := by omega
        obtain ⟨last, hfirst, hlast, hquestions, hpassed, hending⟩ :=
          refine_course hleft (Nat.succ_pos i)
        refine ⟨last, by omega, hlast, hquestions, ?_, hending⟩
        intro j hj hjlast
        rcases Nat.eq_or_lt_of_le hj with rfl | hlt
        · exact hhere
        · exact hpassed j hlt hjlast

/-! ### Whole searches -/

/-- How a search for the locator of an element goes that asks up to the question `last`. -/
structure Course (v : Evaluator) (asked : Questions) (e : Element) (last : Nat)
    (result : Except InspectionError Locator) : Prop where
  /-- Only several references to the base expression lead to positions, and to no more than these
  are. -/
  several : 0 < last → ∃ found, answerAt v (baseExpression e) asked 0 = .ok found ∧
    1 < found.length ∧ last ≤ found.length
  /-- No position before the last was answered by the reference alone or by a fault. -/
  passed : ∀ i, 0 < i → i < last → IsOther e.reference (answerAt v (baseExpression e) asked i)
  /-- The search does not end early. -/
  ended : (∃ fault, answerAt v (baseExpression e) asked last = .error fault) ∨
    answerAt v (baseExpression e) asked last = .ok [e.reference] ∨
    ∃ found, answerAt v (baseExpression e) asked 0 = .ok found ∧
      (found.length ≤ 1 ∨ last = found.length)
  /-- The search succeeds iff the last answer is the reference alone. -/
  ok_iff : ∀ l, result = .ok l ↔
    answerAt v (baseExpression e) asked last = .ok [e.reference] ∧
    l.expression = question (baseExpression e) last ∧
    ∃ found, answerAt v (baseExpression e) asked 0 = .ok found ∧
      l.baseMatches = found.length ∧ (l.isRefined = true ↔ 1 < found.length)
  fault : ∀ fault, answerAt v (baseExpression e) asked last = .error fault → result = .error fault
  unmatched : answerAt v (baseExpression e) asked 0 = .ok [] →
    result = .error (.unmatched (baseExpression e))
  ambiguous : ∀ other, answerAt v (baseExpression e) asked 0 = .ok [other] → other ≠ e.reference →
    result = .error (.ambiguous (baseExpression e) 1)
  exhausted : ∀ found, answerAt v (baseExpression e) asked 0 = .ok found → 1 < found.length →
    (∀ i, 0 < i → i ≤ found.length →
      IsOther e.reference (answerAt v (baseExpression e) asked i)) →
    last = found.length ∧ result = .error (.ambiguous (baseExpression e) found.length)

/-- A search that ends with the base expression has a course if its result fits the answer. -/
theorem course_zero {e : Element} {result : Except InspectionError Locator}
    (hfew : ∀ found, answerAt v (baseExpression e) asked 0 = .ok found → found.length ≤ 1)
    (hok : ∀ l, result = .ok l ↔ answerAt v (baseExpression e) asked 0 = .ok [e.reference] ∧
      l = ⟨baseExpression e, 1, false⟩)
    (hfault : ∀ fault, answerAt v (baseExpression e) asked 0 = .error fault →
      result = .error fault)
    (hunmatched : answerAt v (baseExpression e) asked 0 = .ok [] →
      result = .error (.unmatched (baseExpression e)))
    (hambiguous : ∀ other, answerAt v (baseExpression e) asked 0 = .ok [other] →
      other ≠ e.reference → result = .error (.ambiguous (baseExpression e) 1)) :
    Course v asked e 0 result where
  several h := absurd h (Nat.lt_irrefl 0)
  passed i _ h := absurd h (Nat.not_lt_zero i)
  ended := by
    cases hanswer : answerAt v (baseExpression e) asked 0 with
    | error fault => exact Or.inl ⟨fault, rfl⟩
    | ok found => exact Or.inr (Or.inr ⟨found, rfl, Or.inl (hfew found hanswer)⟩)
  ok_iff l := by
    rw [hok]
    constructor
    · rintro ⟨hanswer, rfl⟩
      exact ⟨hanswer, rfl, [e.reference], hanswer, rfl, by simp⟩
    · rintro ⟨hanswer, hexpression, found, hfound, hcount, hrefined⟩
      obtain rfl : [e.reference] = found := Except.ok.inj (hanswer.symm.trans hfound)
      obtain ⟨expression, count, isRefined⟩ := l
      refine ⟨hanswer, ?_⟩
      simp_all [question]
  fault := hfault
  unmatched := hunmatched
  ambiguous := hambiguous
  exhausted found hfound hlong _ := absurd (hfew found hfound) (by omega)

theorem course_of_ending {e : Element} {found : List String} {last : Nat}
    {result : Except InspectionError Locator}
    (hanswer : answerAt v (baseExpression e) asked 0 = .ok found) (hlong : 1 < found.length)
    (hfirst : 1 ≤ last) (hlast : last ≤ found.length)
    (hpassed : ∀ j, 1 ≤ j → j < last →
      IsOther e.reference (answerAt v (baseExpression e) asked j))
    (hending : Ending v e.reference (baseExpression e) asked found.length last result) :
    Course v asked e last result := by
  -- There is one answer to the base expression, and it has several references.
  have hfound : ∀ more, answerAt v (baseExpression e) asked 0 = .ok more → found = more :=
    fun more h => Except.ok.inj (hanswer.symm.trans h)
  have hseveral : ∀ more, answerAt v (baseExpression e) asked 0 = .ok more → 1 < more.length := by
    intro more h
    rwa [← hfound more h]
  refine ⟨fun _ => ⟨found, hanswer, hlong, hlast⟩, hpassed, ?ended, ?ok_iff, ?fault, ?unmatched,
    ?ambiguous, ?exhausted⟩
  case ended =>
    cases hending with
    | failed h => exact Or.inl ⟨_, h⟩
    | found h => exact Or.inr (Or.inl h)
    | exhausted _ => exact Or.inr (Or.inr ⟨found, hanswer, Or.inr rfl⟩)
  case ok_iff =>
    have hquestion := question_of_pos (baseExpression e) hfirst
    rintro ⟨expression, count, isRefined⟩
    cases hending with
    | failed h => simp [h]
    | found h => simp [h, hanswer, hlong, hquestion, eq_comm]
    | exhausted h =>
      obtain ⟨other, hother, hne⟩ := h
      simp [hother, hne]
  case fault =>
    intro fault h
    cases hending with
    | failed h' =>
      obtain rfl : fault = _ := Except.error.inj (h.symm.trans h')
      rfl
    | found h' => simp [h] at h'
    | exhausted h' =>
      obtain ⟨other, hother, -⟩ := h'
      simp [h] at hother
  case unmatched =>
    intro h
    exact absurd (hseveral [] h) (by simp)
  case ambiguous =>
    intro other h _
    exact absurd (hseveral [other] h) (by simp)
  case exhausted =>
    intro more h _ hothers
    obtain rfl := hfound more h
    -- No position is answered by the reference alone, and none by a fault.
    obtain ⟨other, hother, hne⟩ := hothers last hfirst hlast
    cases hending with
    | failed h' => simp [hother] at h'
    | found h' => exact absurd (Except.ok.inj (hother.symm.trans h')) hne
    | exhausted _ => exact ⟨rfl, rfl⟩

theorem exists_course (v : Evaluator) (asked : Questions) (e : Element) :
    ∃ last, (synthesize v asked e).2 = askedBefore (baseExpression e) asked (last + 1) ∧
      Course v asked e last (synthesize v asked e).1 := by
  have hzero : v.answer asked (baseExpression e) = answerAt v (baseExpression e) asked 0 := rfl
  rw [synthesize, hzero]
  cases hanswer : answerAt v (baseExpression e) asked 0 with
  | error fault =>
    refine ⟨0, rfl, ?_⟩
    apply course_zero <;> simp [hanswer]
  | ok found =>
    cases found with
    | nil =>
      refine ⟨0, rfl, ?_⟩
      apply course_zero <;> simp [hanswer]
    | cons only more =>
      cases more with
      | nil =>
        dsimp only
        split
        next hself =>
          refine ⟨0, rfl, ?_⟩
          apply course_zero <;> simp [hanswer, hself, eq_comm]
        next hother =>
          refine ⟨0, rfl, ?_⟩
          apply course_zero <;> simp [hanswer, hother]
      | cons second more =>
        have hcount : 1 + (more.length + 1) = (only :: second :: more).length := by
          rw [List.length_cons, List.length_cons]
          omega
        obtain ⟨last, hfirst, hlast, hquestions, hpassed, hending⟩ :=
          @refine_course v e.reference (baseExpression e) asked _ _ _ hcount Nat.one_pos
        refine ⟨last, hquestions, ?_⟩
        exact course_of_ending hanswer (by simp) hfirst hlast hpassed hending

/-! ### Errors of searches -/

/-- A search that fails passes on an error of the evaluator, or says how many elements it found
instead of one. -/
theorem error_of_synthesize {e : Element} {fault : InspectionError}
    (h : (synthesize v asked e).1 = .error fault) :
    (∃ i, answerAt v (baseExpression e) asked i = .error fault) ∨
      fault = .unmatched (baseExpression e) ∨
      ∃ count, fault = .ambiguous (baseExpression e) count := by
  have hzero : v.answer asked (baseExpression e) = answerAt v (baseExpression e) asked 0 := rfl
  rw [synthesize, hzero] at h
  cases hanswer : answerAt v (baseExpression e) asked 0 with
  | error first =>
    rw [hanswer] at h
    obtain rfl := Except.error.inj h
    exact Or.inl ⟨0, hanswer⟩
  | ok found =>
    rw [hanswer] at h
    rcases found with _ | ⟨only, _ | ⟨second, rest⟩⟩
    · exact Or.inr (Or.inl (Except.error.inj h).symm)
    · dsimp only at h
      split at h
      · cases h
      · exact Or.inr (Or.inr ⟨1, (Except.error.inj h).symm⟩)
    · have hcount : 1 + (rest.length + 1) = (only :: second :: rest).length := by
        rw [List.length_cons, List.length_cons]
        omega
      obtain ⟨last, -, -, -, -, hending⟩ :=
        @refine_course v e.reference (baseExpression e) asked _ _ _ hcount Nat.one_pos
      change Ending v e.reference (baseExpression e) asked _ last
        (refine v e.reference (baseExpression e) (only :: second :: rest).length
          (only :: second :: rest).length 1 (baseExpression e :: asked)).1 at hending
      dsimp only at h
      rw [h] at hending
      cases hending with
      | failed hfault => exact Or.inl ⟨last, hfault⟩
      | exhausted _ => exact Or.inr (Or.inr ⟨_, rfl⟩)

/-- A confirmation that fails passes on the error of the evaluator, or says how many elements there
are instead of one. -/
theorem error_of_confirm {expression : String} {fault : InspectionError}
    (h : (confirm v asked expression).1 = .error fault) :
    v.answer asked expression = .error fault ∨ fault = .unmatched expression ∨
      ∃ count, fault = .ambiguous expression count := by
  rw [confirm] at h
  cases hanswer : v.answer asked expression with
  | error first =>
    rw [hanswer] at h
    obtain rfl := Except.error.inj h
    exact Or.inl rfl
  | ok found =>
    rw [hanswer] at h
    rcases found with _ | ⟨only, _ | ⟨second, rest⟩⟩
    · exact Or.inr (Or.inl (Except.error.inj h).symm)
    · cases h
    · exact Or.inr (Or.inr ⟨_, (Except.error.inj h).symm⟩)

/-- **A search is sound with any evaluator**, and it asks what its course says and nothing else.  If
the evaluator is consistent, elements with different references have different locators. -/
theorem synthesize_course (v : Evaluator) :
    (∀ asked e, ∃ last,
      (synthesize v asked e).2 = askedBefore (baseExpression e) asked (last + 1) ∧
      Course v asked e last (synthesize v asked e).1) ∧
    (v.IsConsistent → ∀ asked asked' e e' l l', (synthesize v asked e).1 = .ok l →
      (synthesize v asked' e').1 = .ok l' → e.reference ≠ e'.reference →
      l.expression ≠ l'.expression) := by
  refine ⟨exists_course v, ?_⟩
  intro hconsistent asked asked' e e' l l' hl hl' hne hsame
  obtain ⟨last, -, hcourse⟩ := exists_course v asked e
  obtain ⟨last', -, hcourse'⟩ := exists_course v asked' e'
  obtain ⟨hanswer, hquestion, -⟩ := (hcourse.ok_iff l).mp hl
  obtain ⟨hanswer', hquestion', -⟩ := (hcourse'.ok_iff l').mp hl'
  rw [answerAt, ← hquestion, hsame] at hanswer
  rw [answerAt, ← hquestion', hconsistent _ (askedBefore (baseExpression e) asked last),
    hanswer] at hanswer'
  injection hanswer' with hreferences
  exact hne (List.cons.inj hreferences).1

end Locator

end ScreenInspector
