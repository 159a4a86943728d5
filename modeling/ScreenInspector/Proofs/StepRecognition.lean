/-
  ScreenInspector/Proofs/StepRecognition.lean
  ===========================================
  **The steps of paths are recognized**: node tests, predicates, single steps and steps between
  slashes.

  All of it is about a parser of nested expressions that recognizes some language of them, whatever
  follows its expressions.  A step tells in its result whether it leads to attributes, so the rule
  that only the last step may do so is read off the results (`any_dropLast_spelledOut`).
-/
import ScreenInspector.Proofs.Recognition

namespace ScreenInspector.Expression

/-! ### Steps -/

/-- Neither a parenthesis nor an axis mark follows an operand. -/
theorem follow_cases {ts : List Token} (h : follow ts ≤ 9) :
    (∀ more, ts ≠ .openParen :: more) ∧ ∀ more, ts ≠ .doubleColon :: more := by
  constructor
  · rintro more rfl
    exact absurd h (by simp [follow, Token.strength])
  · rintro more rfl
    exact absurd h (by simp [follow, Token.strength])

theorem closeParen_eq_ok_iff {ts rest : List Token} :
    closeParen ts = .ok rest ↔ ts = .closeParen :: rest :=
  expect_eq_ok_iff (by simp)

theorem closeBracket_eq_ok_iff {ts rest : List Token} :
    closeBracket ts = .ok rest ↔ ts = .closeBracket :: rest :=
  expect_eq_ok_iff (by simp)

theorem parseTest_name {n : String} {rest : List Token} (h : ∀ more, rest ≠ .openParen :: more) :
    parseTest (.name n :: rest) = .ok (.name n, rest) := by
  rw [parseTest]
  intro more heq
  exact h more heq

theorem recognizes_test : Recognizes (fun test => decide (test = .text)) parseTest Grammar.Test 9 where
  sound := by
    intro ts test rest h
    unfold parseTest at h
    split at h
    · obtain ⟨rfl, rfl⟩ := Prod.mk.inj (Except.ok.inj h)
      exact .anyElement _
    next n after =>
      split at h
      next hn =>
        subst hn
        obtain ⟨after', hclose, heq⟩ := map_eq_ok_iff.mp h
        obtain ⟨rfl, rfl⟩ := Prod.mk.inj heq
        rw [closeParen_eq_ok_iff.mp hclose]
        exact .node after'
      next =>
        split at h
        next hn =>
          subst hn
          obtain ⟨after', hclose, heq⟩ := map_eq_ok_iff.mp h
          obtain ⟨rfl, rfl⟩ := Prod.mk.inj heq
          rw [closeParen_eq_ok_iff.mp hclose]
          exact .text after'
        next => exact absurd h (by simp)
    next n after _ =>
      obtain ⟨rfl, rfl⟩ := Prod.mk.inj (Except.ok.inj h)
      exact .name n after
    · exact absurd h (by simp)
  complete := by
    intro texts ts rest h hfollow
    cases h with
    | anyElement => exact ⟨.anyElement, by decide, rfl⟩
    | name n => exact ⟨.name n, by simp, parseTest_name (follow_cases hfollow).1⟩
    | node => exact ⟨.anyNode, by decide, rfl⟩
    | text => exact ⟨.text, by decide, rfl⟩
  shrinks := by
    intro texts ts rest h
    cases h with
    | anyElement => exact Nat.le_succ _
    | name => exact Nat.le_succ _
    | node => simp only [List.length_cons]; omega
    | text => simp only [List.length_cons]; omega

section Nested

variable {nested : Parser Expr} {N : Grammar.Language}

/-- What follows a node test binds no stronger than the bracket of a predicate. -/
theorem follow_le_of_predicates {ts rest : List Token} (h : Grammar.Predicates N ts rest)
    (hfollow : follow rest ≤ 8) : follow ts ≤ 9 := by
  cases h with
  | none => exact Nat.le_succ_of_le hfollow
  | more => exact Nat.le_refl 9

theorem length_le_of_predicates (h : Reads nested N 0) {ts rest : List Token}
    (hpredicates : Grammar.Predicates N ts rest) : rest.length ≤ ts.length := by
  induction hpredicates with
  | none => exact Nat.le_refl _
  | more hnested _ ih =>
    have hlength := h.rest_le hnested
    simp only [List.length_cons] at hlength ⊢
    omega

theorem predicatesLoop_stop {fuel : Nat} {ts : List Token} (h : follow ts ≤ 8) :
    parsePredicatesLoop nested fuel ts = .ok ([], ts) := by
  unfold parsePredicatesLoop
  split
  next => exact absurd h (by simp [follow, Token.strength])
  next => rfl

theorem reads_predicates (h : Reads nested N 0) :
    Reads (parsePredicates nested) (Grammar.Predicates N) 8 where
  sound := by
    intro ts predicates rest hparse
    rw [parsePredicates] at hparse
    generalize ts.length = fuel at hparse
    induction fuel generalizing ts predicates with
    | zero =>
      obtain ⟨-, rfl⟩ := Prod.mk.inj (Except.ok.inj hparse)
      exact .none _
    | succ fuel ih =>
      unfold parsePredicatesLoop at hparse
      split at hparse
      next _ fuel' inner heq =>
        obtain rfl := Nat.succ.inj heq
        obtain ⟨⟨e, mid⟩, he, hparse⟩ := bind_eq_ok_iff.mp hparse
        obtain ⟨after, hclose, hparse⟩ := bind_eq_ok_iff.mp hparse
        obtain ⟨⟨more, rest'⟩, hmore, hparse⟩ := bind_eq_ok_iff.mp hparse
        obtain ⟨-, rfl⟩ := Prod.mk.inj (Except.ok.inj hparse)
        obtain rfl := closeBracket_eq_ok_iff.mp hclose
        exact .more (h.sound he) (ih hmore)
      next =>
        obtain ⟨-, rfl⟩ := Prod.mk.inj (Except.ok.inj hparse)
        exact .none _
  complete := by
    intro _ ts rest hpredicates hfollow
    have hloop : ∀ fuel, ts.length ≤ fuel →
        ∃ predicates, parsePredicatesLoop nested fuel ts = .ok (predicates, rest) := by
      induction hpredicates with
      | none ts => exact fun fuel _ => ⟨[], predicatesLoop_stop hfollow⟩
      | @more inner mid rest hnested _ ih =>
        intro fuel hfuel
        have hlength := h.rest_le hnested
        obtain ⟨e, he⟩ := h.accepts hnested (Nat.le_refl 0)
        simp only [List.length_cons] at hfuel hlength
        obtain ⟨fuel, rfl⟩ := Nat.exists_eq_add_of_le' (Nat.lt_of_lt_of_le (Nat.succ_pos _) hfuel)
        obtain ⟨more, hmore⟩ := ih hfollow fuel (by omega)
        refine ⟨e :: more, ?_⟩
        simp only [parsePredicatesLoop, he, closeBracket_eq_ok_iff.mpr rfl, hmore, ok_bind,
          pure_eq_ok]
    obtain ⟨predicates, hparse⟩ := hloop ts.length (Nat.le_refl _)
    exact ⟨predicates, rfl, hparse⟩
  shrinks := length_le_of_predicates h

/-- Where no predicate is read, nothing is. -/
theorem parsePredicates_nil {ts rest : List Token}
    (h : parsePredicates nested ts = .ok ([], rest)) : rest = ts := by
  rw [parsePredicates] at h
  unfold parsePredicatesLoop at h
  split at h
  next =>
    obtain ⟨⟨e, mid⟩, -, h⟩ := bind_eq_ok_iff.mp h
    obtain ⟨after, -, h⟩ := bind_eq_ok_iff.mp h
    obtain ⟨⟨more, rest'⟩, -, h⟩ := bind_eq_ok_iff.mp h
    obtain ⟨hnil, -⟩ := Prod.mk.inj (Except.ok.inj h)
    exact absurd hnil (by simp)
  next => exact (Prod.mk.inj (Except.ok.inj h)).2.symm

def Step.isAttribute (s : Step) : Bool := s.axis == .attribute

/-- A step after its axis: a test and predicates, for attributes a test for names alone. -/
theorem parseStepOn_sound (h : Reads nested N 0) {axis : Axis} {ts rest : List Token} {s : Step}
    (hparse : parseStepOn nested axis ts = .ok (s, rest)) :
    s.axis = axis ∧
      (axis = .attribute → Grammar.Test false ts rest) ∧
      ∃ texts mid, Grammar.Test texts ts mid ∧ Grammar.Predicates N mid rest := by
  rw [parseStepOn] at hparse
  obtain ⟨⟨test, mid⟩, htest, hparse⟩ := bind_eq_ok_iff.mp hparse
  obtain ⟨⟨predicates, rest'⟩, hpredicates, hparse⟩ := bind_eq_ok_iff.mp hparse
  dsimp only at hpredicates hparse
  split at hparse
  · exact absurd hparse (by simp)
  next hplain =>
    obtain ⟨rfl, rfl⟩ := Prod.mk.inj (Except.ok.inj hparse)
    refine ⟨rfl, ?_, _, mid, recognizes_test.sound htest, (reads_predicates h).sound hpredicates⟩
    intro haxis
    have hnone : ¬ (test = .text ∨ predicates.isEmpty = false) := fun h => hplain ⟨haxis, h⟩
    rw [not_or, Bool.not_eq_false, List.isEmpty_iff] at hnone
    obtain ⟨htext, rfl⟩ := hnone
    have hderived := recognizes_test.sound htest
    rw [decide_eq_false htext] at hderived
    rwa [parsePredicates_nil hpredicates]

theorem parseStepOn_complete (h : Reads nested N 0) (axis : Axis) {texts : Bool}
    {ts mid rest : List Token} (htest : Grammar.Test texts ts mid)
    (hpredicates : Grammar.Predicates N mid rest) (hfollow : follow rest ≤ 8)
    (hplain : axis = .attribute → texts = false ∧ mid = rest) :
    ∃ s, s.axis = axis ∧ parseStepOn nested axis ts = .ok (s, rest) := by
  obtain ⟨test, hview, hread⟩ :=
    recognizes_test.complete htest (follow_le_of_predicates hpredicates hfollow)
  by_cases haxis : axis = .attribute
  · obtain ⟨rfl, rfl⟩ := hplain haxis
    have hnone : parsePredicates nested mid = .ok ([], mid) := predicatesLoop_stop hfollow
    have htext : test ≠ .text := of_decide_eq_false hview
    refine ⟨.step axis test [], rfl, ?_⟩
    simp [parseStepOn, hread, hnone, htext]
  · obtain ⟨predicates, hparse⟩ := (reads_predicates h).accepts hpredicates hfollow
    refine ⟨.step axis test predicates, rfl, ?_⟩
    simp [parseStepOn, hread, hparse, haxis]

/-- The step of tokens that begin with none of the marks of other steps is one to children. -/
theorem parseStep_child {ts mid : List Token} {texts : Bool} (htest : Grammar.Test texts ts mid)
    (hfollow : follow mid ≤ 9) : parseStep nested ts = parseStepOn nested .child ts := by
  cases htest with
  | anyElement => rfl
  | name n =>
    rw [parseStep]
    · simp
    · simp
    · simp
    · intro n' more heq
      exact (follow_cases hfollow).2 more (List.cons.inj heq).2
  | node => rfl
  | text => rfl

theorem recognizes_step (h : Reads nested N 0) :
    Recognizes Step.isAttribute (parseStep nested) (Grammar.Step N) 8 where
  sound := by
    intro ts s rest hparse
    unfold parseStep at hparse
    split at hparse
    · obtain ⟨rfl, rfl⟩ := Prod.mk.inj (Except.ok.inj hparse)
      exact .self _
    · obtain ⟨rfl, rfl⟩ := Prod.mk.inj (Except.ok.inj hparse)
      exact .parent _
    · obtain ⟨haxis, htest, -⟩ := parseStepOn_sound h hparse
      rw [Step.isAttribute, haxis]
      exact .attributeMark (htest rfl)
    next n after =>
      split at hparse
      next axis hname =>
        obtain ⟨haxis, htest, texts, mid, hany, hpredicates⟩ := parseStepOn_sound h hparse
        rw [Step.isAttribute, haxis]
        by_cases hattribute : axis = .attribute
        · subst hattribute
          exact .attributeAxis hname (htest rfl)
        · rw [beq_false_of_ne hattribute]
          exact .along hname hattribute hany hpredicates
      next => exact absurd hparse (by simp)
    · obtain ⟨haxis, -, texts, mid, htest, hpredicates⟩ := parseStepOn_sound h hparse
      rw [Step.isAttribute, haxis]
      exact .child htest hpredicates
  complete := by
    intro isAttribute ts rest hstep hfollow
    cases hstep with
    | self => exact ⟨_, rfl, rfl⟩
    | parent => exact ⟨_, rfl, rfl⟩
    | child htest hpredicates =>
      obtain ⟨s, haxis, hparse⟩ :=
        parseStepOn_complete h .child htest hpredicates hfollow (by simp)
      refine ⟨s, by rw [Step.isAttribute, haxis]; rfl, ?_⟩
      rw [parseStep_child htest (follow_le_of_predicates hpredicates hfollow), hparse]
    | along hname hattribute htest hpredicates =>
      obtain ⟨s, haxis, hparse⟩ :=
        parseStepOn_complete h _ htest hpredicates hfollow fun heq => absurd heq hattribute
      refine ⟨s, by rw [Step.isAttribute, haxis, beq_false_of_ne hattribute], ?_⟩
      simp only [parseStep, hname, hparse]
    | attributeMark htest =>
      obtain ⟨s, haxis, hparse⟩ := parseStepOn_complete h .attribute htest (.none rest)
        hfollow fun _ => ⟨rfl, rfl⟩
      exact ⟨s, by rw [Step.isAttribute, haxis]; rfl, hparse⟩
    | attributeAxis hname htest =>
      obtain ⟨s, haxis, hparse⟩ := parseStepOn_complete h .attribute htest (.none rest)
        hfollow fun _ => ⟨rfl, rfl⟩
      refine ⟨s, by rw [Step.isAttribute, haxis]; rfl, ?_⟩
      simp only [parseStep, hname, hparse]
  shrinks := by
    intro isAttribute ts rest hstep
    cases hstep with
    | self => exact Nat.le_succ _
    | parent => exact Nat.le_succ _
    | child htest hpredicates =>
      exact Nat.le_trans (length_le_of_predicates h hpredicates) (recognizes_test.shrinks htest)
    | along _ _ htest hpredicates =>
      have hlength := Nat.le_trans (length_le_of_predicates h hpredicates)
        (recognizes_test.shrinks htest)
      simp only [List.length_cons]
      omega
    | attributeMark htest => exact Nat.le_succ_of_le (recognizes_test.shrinks htest)
    | attributeAxis _ htest =>
      have hlength := recognizes_test.shrinks htest
      simp only [List.length_cons]
      omega

/-- A step that others follow is not the last one, so it may not lead to attributes. -/
theorem any_dropLast_spelledOut (s a : Step) (double : Bool) (more : List (Bool × Step)) :
    ((Step.spelledOut (s, (double, a) :: more)).dropLast.any fun s => s.axis == .attribute) =
      (s.isAttribute ||
        (Step.spelledOut (a, more)).dropLast.any fun s => s.axis == .attribute) := by
  have heverywhere : (Step.everywhere.axis == Axis.attribute) = false := rfl
  cases double with
  | false => simp [Step.spelledOut, Step.isAttribute]
  | true => simp [Step.spelledOut, Step.isAttribute, heverywhere]

theorem binds_separator : Binds Grammar.IsSeparator Token.separator? 8 where
  operator_iff t := by
    cases t <;> simp [Grammar.IsSeparator, Token.separator?]
  strength_iff t := by
    cases t with
    | name n => simp [Grammar.IsSeparator, strength_name_iff]
    | _ => simp [Grammar.IsSeparator, Token.strength]

/-- **Steps that slashes separate are read**, and attributes only at their end. -/
theorem reads_steps (h : Reads nested N 0) : Reads (parseSteps nested) (Grammar.Steps N) 7 where
  sound := by
    intro ts steps rest hparse
    rw [parseSteps] at hparse
    obtain ⟨⟨⟨s, more⟩, rest'⟩, hchain, hcheck⟩ := bind_eq_ok_iff.mp hparse
    dsimp only at hcheck
    split at hcheck
    · exact absurd hcheck (by simp)
    next hlast =>
      obtain ⟨-, rfl⟩ := Prod.mk.inj (Except.ok.inj hcheck)
      obtain ⟨mid, hs, htail⟩ := (chain_eq_ok_iff (recognizes_step h).length_le).mp hchain
      clear hparse hchain hcheck
      rw [Bool.not_eq_true] at hlast
      -- The check is about all steps at once, so it is taken apart along the loop.
      induction htail generalizing ts s with
      | stop => exact .last ((recognizes_step h).sound hs)
      | next ho ha _ ih =>
        rw [any_dropLast_spelledOut, Bool.or_eq_false_iff] at hlast
        have hstep := (recognizes_step h).sound hs
        rw [hlast.1] at hstep
        exact .more hstep (binds_separator.of_eq_some ho) (ih _ hlast.2 ha)
  complete := by
    intro _ ts rest hsteps hfollow
    have htail : ∃ s mid more, parseStep nested ts = .ok (s, mid) ∧
        Tail Token.separator? (parseStep nested) mid more rest ∧
        ((Step.spelledOut (s, more)).dropLast.any fun s => s.axis == .attribute) = false := by
      induction hsteps with
      | @last isAttribute ts rest hstep =>
        obtain ⟨s, -, hs⟩ := (recognizes_step h).complete hstep (Nat.le_succ_of_le hfollow)
        exact ⟨s, rest, [], hs, .stop (binds_separator.none_of_follow_le hfollow), rfl⟩
      | @more t ts mid rest hstep ht _ ih =>
        have hstrength : follow (t :: mid) ≤ 8 := Nat.le_of_eq ((binds_separator.strength_iff t).mp ht)
        obtain ⟨s, hplain, hs⟩ := (recognizes_step h).complete hstep hstrength
        obtain ⟨o, ho⟩ := binds_separator.exists_eq_some ht
        obtain ⟨a, mid', more, ha, htail, hlast⟩ := ih hfollow
        refine ⟨s, t :: mid, (o, a) :: more, hs, .next ho ha htail, ?_⟩
        rw [any_dropLast_spelledOut, hplain, hlast]
        rfl
    obtain ⟨s, mid, more, hs, htail, hlast⟩ := htail
    have hchain : chain Token.separator? (parseStep nested) ts = .ok ((s, more), rest) :=
      (chain_eq_ok_iff (recognizes_step h).length_le).mpr ⟨mid, hs, htail⟩
    refine ⟨Step.spelledOut (s, more), rfl, ?_⟩
    rw [parseSteps, hchain, ok_bind]
    simp only [hlast]
    rfl
  shrinks := by
    intro _ ts rest hsteps
    induction hsteps with
    | last hstep => exact (recognizes_step h).shrinks hstep
    | more hstep _ _ ih =>
      have hlength := (recognizes_step h).shrinks hstep
      rw [List.length_cons] at hlength
      omega

end Nested

end ScreenInspector.Expression
