/-
  ScreenInspector/Proofs/GrammarRecognition.lean
  ==============================================
  **The parser accepts exactly the grammar.**

  There is one lemma for each parser, from the arguments of calls up to whole expressions.  Where
  the parser looks at the next tokens to choose a rule, a lemma says that the other rules derive
  nothing that begins so: steps begin with what `BeginsStep` says, primary expressions do not
  (`not_beginsStep_of_primary`), and operands begin neither with a minus sign nor with a closing
  parenthesis.

  The knot is tied by induction on the number of levels (`reads_nested`), and
  `accepted_iff_isExpression` is about all tokens of an expression.
-/
import ScreenInspector.Proofs.StepRecognition

namespace ScreenInspector.Expression

section Nested

variable {nested : Parser Expr} {N : Grammar.Language}

/-! ### Primary expressions -/

theorem argumentsLoop_sound (h : Reads nested N 0) {fuel : Nat} {ts rest : List Token}
    {arguments : List Expr} (hparse : parseArgumentsLoop nested fuel ts = .ok (arguments, rest)) :
    Grammar.ArgumentList N arguments.length ts rest := by
  induction fuel generalizing ts arguments with
  | zero => exact absurd hparse (by simp [parseArgumentsLoop])
  | succ fuel ih =>
    rw [parseArgumentsLoop] at hparse
    obtain ⟨⟨e, mid⟩, he, hparse⟩ := bind_eq_ok_iff.mp hparse
    dsimp only at hparse
    have hnested := h.sound he
    split at hparse
    · obtain ⟨⟨more, rest'⟩, hmore, hparse⟩ := bind_eq_ok_iff.mp hparse
      obtain ⟨rfl, rfl⟩ := Prod.mk.inj (Except.ok.inj hparse)
      exact .more hnested (ih hmore)
    · obtain ⟨after, hclose, hparse⟩ := bind_eq_ok_iff.mp hparse
      obtain ⟨rfl, rfl⟩ := Prod.mk.inj (Except.ok.inj hparse)
      rw [closeParen_eq_ok_iff.mp hclose] at hnested
      exact .last hnested

theorem argumentsLoop_complete (h : Reads nested N 0) {count : Nat} {ts rest : List Token}
    (hlist : Grammar.ArgumentList N count ts rest) {fuel : Nat} (hfuel : ts.length < fuel) :
    ∃ arguments, arguments.length = count ∧
      parseArgumentsLoop nested fuel ts = .ok (arguments, rest) := by
  induction hlist generalizing fuel with
  | last hnested =>
    obtain ⟨fuel, rfl⟩ := Nat.exists_eq_add_of_le' (Nat.lt_of_le_of_lt (Nat.zero_le _) hfuel)
    obtain ⟨e, he⟩ := h.accepts hnested (Nat.le_refl 0)
    refine ⟨[e], rfl, ?_⟩
    simp only [parseArgumentsLoop, he, ok_bind, closeParen_eq_ok_iff.mpr rfl, pure_eq_ok]
  | more hnested _ ih =>
    obtain ⟨fuel, rfl⟩ := Nat.exists_eq_add_of_le' (Nat.lt_of_le_of_lt (Nat.zero_le _) hfuel)
    obtain ⟨e, he⟩ := h.accepts hnested (Nat.le_refl 0)
    have hlength := h.rest_le hnested
    rw [List.length_cons] at hlength
    have hleft : _ < fuel := Nat.lt_of_lt_of_le hlength (Nat.le_of_lt_succ hfuel)
    obtain ⟨more, hcount, hmore⟩ := ih hleft
    refine ⟨e :: more, by rw [List.length_cons, hcount], ?_⟩
    simp only [parseArgumentsLoop, he, ok_bind, hmore, pure_eq_ok]

theorem length_le_of_argumentList (h : Reads nested N 0) {count : Nat} {ts rest : List Token}
    (hlist : Grammar.ArgumentList N count ts rest) : rest.length ≤ ts.length := by
  induction hlist with
  | last hnested =>
    have hlength := h.rest_le hnested
    rw [List.length_cons] at hlength
    omega
  | more hnested _ ih =>
    have hlength := h.rest_le hnested
    rw [List.length_cons] at hlength
    omega

theorem ne_closeParen_of_argumentList (h : Reads nested N 0)
    (hclose : ∀ more e, nested (.closeParen :: more) ≠ .ok e) {count : Nat} {ts rest : List Token}
    (hlist : Grammar.ArgumentList N count ts rest) : ∀ more, ts ≠ .closeParen :: more := by
  rintro more rfl
  cases hlist with
  | last hnested =>
    obtain ⟨e, he⟩ := h.accepts hnested (Nat.le_refl 0)
    exact hclose more _ he
  | more hnested _ =>
    obtain ⟨e, he⟩ := h.accepts hnested (Nat.le_refl 0)
    exact hclose more _ he

theorem recognizes_arguments (h : Reads nested N 0)
    (hclose : ∀ more e, nested (.closeParen :: more) ≠ .ok e) :
    Recognizes List.length (parseArguments nested) (Grammar.Arguments N) 10 where
  sound := by
    intro ts arguments rest hparse
    unfold parseArguments at hparse
    split at hparse
    · obtain ⟨rfl, rfl⟩ := Prod.mk.inj (Except.ok.inj hparse)
      exact .none _
    · exact .some (argumentsLoop_sound h hparse)
  complete := by
    intro count ts rest harguments _
    cases harguments with
    | none => exact ⟨[], rfl, rfl⟩
    | some hlist =>
      obtain ⟨arguments, hcount, hparse⟩ := argumentsLoop_complete h hlist (Nat.lt_succ_self _)
      refine ⟨arguments, hcount, ?_⟩
      rw [parseArguments]
      · exact hparse
      · exact ne_closeParen_of_argumentList h hclose hlist
  shrinks := by
    intro count ts rest harguments
    cases harguments with
    | none => exact Nat.le_succ _
    | some hlist => exact length_le_of_argumentList h hlist

theorem reads_primary (h : Reads nested N 0)
    (hclose : ∀ more e, nested (.closeParen :: more) ≠ .ok e) :
    Reads (parsePrimary nested) (Grammar.Primary N) 10 where
  sound := by
    intro ts e rest hparse
    unfold parsePrimary at hparse
    split at hparse
    · obtain ⟨⟨inner, mid⟩, hinner, hparse⟩ := bind_eq_ok_iff.mp hparse
      obtain ⟨after, hparen, hparse⟩ := bind_eq_ok_iff.mp hparse
      obtain ⟨-, rfl⟩ := Prod.mk.inj (Except.ok.inj hparse)
      have hnested := h.sound hinner
      rw [closeParen_eq_ok_iff.mp hparen] at hnested
      exact .parenthesized hnested
    · obtain ⟨-, rfl⟩ := Prod.mk.inj (Except.ok.inj hparse)
      exact .literal _ _
    · obtain ⟨-, rfl⟩ := Prod.mk.inj (Except.ok.inj hparse)
      exact .number _ _
    next n inner =>
      rw [parseCall] at hparse
      split at hparse
      · exact absurd hparse (by simp)
      next f hf =>
        obtain ⟨⟨arguments, mid⟩, harguments, hparse⟩ := bind_eq_ok_iff.mp hparse
        dsimp only at hparse
        split at hparse
        next haccepts =>
          obtain ⟨-, rfl⟩ := Prod.mk.inj (Except.ok.inj hparse)
          exact .call hf ((recognizes_arguments h hclose).sound harguments) haccepts
        next => exact absurd hparse (by simp)
    · exact absurd hparse (by simp)
    · exact absurd hparse (by simp)
  complete := by
    intro _ ts rest hprimary hfollow
    cases hprimary with
    | parenthesized hnested =>
      obtain ⟨e, he⟩ := h.accepts hnested (Nat.le_refl 0)
      refine ⟨e, rfl, ?_⟩
      simp only [parsePrimary, he, ok_bind, closeParen_eq_ok_iff.mpr rfl, pure_eq_ok]
    | literal => exact ⟨_, rfl, rfl⟩
    | number => exact ⟨_, rfl, rfl⟩
    | @call n f count ts rest hf harguments haccepts =>
      obtain ⟨arguments, hcount, hparse⟩ :=
        (recognizes_arguments h hclose).complete harguments hfollow
      rw [← hcount] at haccepts
      refine ⟨.call f arguments, rfl, ?_⟩
      simp only [parsePrimary, parseCall, hf, hparse, ok_bind, haccepts, if_true, pure_eq_ok]
  shrinks := by
    intro _ ts rest hprimary
    cases hprimary with
    | parenthesized hnested =>
      have hlength := h.rest_le hnested
      simp only [List.length_cons] at hlength ⊢
      omega
    | literal => exact Nat.le_succ _
    | number => exact Nat.le_succ _
    | call _ harguments _ =>
      have hlength := (recognizes_arguments h hclose).shrinks harguments
      simp only [List.length_cons]
      omega

/-! ### What operands begin with -/

theorem isNodeType_iff (n : String) :
    isNodeType n = true ↔
      n = "node" ∨ n = "text" ∨ n = "comment" ∨ n = "processing-instruction" := by
  simp [isNodeType, or_assoc]

theorem beginsStep_iff (ts : List Token) : beginsStep ts = true ↔ Grammar.BeginsStep ts := by
  constructor
  · intro h
    unfold beginsStep at h
    split at h
    · exact .dot _
    · exact .doubleDot _
    · exact .mark _
    · exact .star _
    · exact .nodeType _ ((isNodeType_iff _).mp h)
    next n ts hparen =>
      apply Grammar.BeginsStep.name
      rintro more rfl
      exact hparen more rfl
    · exact absurd h (by decide)
  · intro h
    cases h with
    | dot => rfl
    | doubleDot => rfl
    | mark => rfl
    | star => rfl
    | name n hparen =>
      unfold beginsStep
      split <;> simp_all
    | nodeType ts hn => exact (isNodeType_iff _).mpr hn

theorem beginsStep_of_step {isAttribute : Bool} {ts rest : List Token}
    (h : Grammar.Step N isAttribute ts rest) (hfollow : follow rest ≤ 8) :
    Grammar.BeginsStep ts := by
  cases h with
  | self => exact .dot _
  | parent => exact .doubleDot _
  | child htest hpredicates =>
    have hmid := follow_le_of_predicates hpredicates hfollow
    cases htest with
    | anyElement => exact .star _
    | name n => exact .name n (follow_cases hmid).1
    | node => exact .nodeType _ (Or.inl rfl)
    | text => exact .nodeType _ (Or.inr (Or.inl rfl))
  | along => exact .name _ (by simp)
  | attributeMark => exact .mark _
  | attributeAxis => exact .name _ (by simp)

theorem beginsStep_of_steps {ts rest : List Token} (h : Grammar.Steps N ts rest)
    (hfollow : follow rest ≤ 7) : Grammar.BeginsStep ts := by
  cases h with
  | last hstep => exact beginsStep_of_step hstep (Nat.le_succ_of_le hfollow)
  | more hstep ht _ =>
    exact beginsStep_of_step hstep (Nat.le_of_eq ((binds_separator.strength_iff _).mp ht))

theorem isNodeType_of_ofWord {n : String} {f : Function} (h : Function.ofWord? n = some f) :
    isNodeType n = false := by
  rw [Function.ofWord?] at h
  have hword := List.find?_some h
  rw [← beq_iff_eq.mp hword]
  cases f <;> decide

/-- A primary expression begins like no step. -/
theorem not_beginsStep_of_primary {ts rest : List Token} (h : Grammar.Primary N ts rest) :
    beginsStep ts = false := by
  cases h with
  | parenthesized => rfl
  | literal => rfl
  | number => rfl
  | call hf _ _ => exact isNodeType_of_ofWord hf

theorem not_primary_of_isSeparator {t : Token} {ts rest : List Token}
    (ht : Grammar.IsSeparator t) : ¬ Grammar.Primary N (t :: ts) rest := by
  rcases ht with rfl | rfl
  · intro h
    cases h
  · intro h
    cases h

theorem not_beginsStep_of_isSeparator {t : Token} {ts : List Token} (ht : Grammar.IsSeparator t) :
    beginsStep (t :: ts) = false := by
  rcases ht with rfl | rfl
  · rfl
  · rfl

/-! ### Paths -/

/-- What is read after tokens that are no separator is the rule for them. -/
theorem parsePath_of_ne {ts : List Token} (h : ∀ t more, Grammar.IsSeparator t → ts ≠ t :: more) :
    parsePath nested ts =
      if beginsStep ts then
        (parseSteps nested ts).map fun (steps, after) => (.path false steps, after)
      else parseFilter nested ts := by
  unfold parsePath
  split
  · exact absurd rfl (h _ _ (Or.inl rfl))
  · exact absurd rfl (h _ _ (Or.inr rfl))
  · rfl

theorem reads_stepsAfter (h : Reads nested N 0) :
    Reads (parseStepsAfter nested) (Grammar.StepsAfter N) 7 where
  sound := by
    intro ts steps rest hparse
    unfold parseStepsAfter at hparse
    split at hparse
    · exact .some (Or.inl rfl) ((reads_steps h).sound hparse)
    · obtain ⟨⟨steps', rest'⟩, hsteps, heq⟩ := map_eq_ok_iff.mp hparse
      obtain ⟨-, rfl⟩ := Prod.mk.inj heq
      exact .some (Or.inr rfl) ((reads_steps h).sound hsteps)
    · obtain ⟨-, rfl⟩ := Prod.mk.inj (Except.ok.inj hparse)
      exact .none _
  complete := by
    intro _ ts rest hafter hfollow
    cases hafter with
    | none =>
      refine ⟨[], rfl, ?_⟩
      rw [parseStepsAfter]
      · rintro more rfl
        exact absurd hfollow (by simp [follow, Token.strength])
      · rintro more rfl
        exact absurd hfollow (by simp [follow, Token.strength])
    | some ht hsteps =>
      obtain ⟨steps, hparse⟩ := (reads_steps h).accepts hsteps hfollow
      rcases ht with rfl | rfl
      · exact ⟨steps, rfl, hparse⟩
      · exact ⟨Step.everywhere :: steps, rfl, by simp only [parseStepsAfter, hparse, map_ok]⟩
  shrinks := by
    intro _ ts rest hafter
    cases hafter with
    | none => exact Nat.le_refl _
    | some _ hsteps => exact Nat.le_succ_of_le ((reads_steps h).rest_le hsteps)

theorem reads_filter (h : Reads nested N 0)
    (hclose : ∀ more e, nested (.closeParen :: more) ≠ .ok e) :
    Reads (parseFilter nested) (Grammar.Filter N) 7 where
  sound := by
    intro ts e rest hparse
    rw [parseFilter] at hparse
    obtain ⟨⟨primary, mid⟩, hprimary, hparse⟩ := bind_eq_ok_iff.mp hparse
    obtain ⟨⟨predicates, mid'⟩, hpredicates, hparse⟩ := bind_eq_ok_iff.mp hparse
    obtain ⟨⟨steps, rest'⟩, hsteps, hparse⟩ := bind_eq_ok_iff.mp hparse
    obtain rfl : rest' = rest := by
      dsimp only at hparse
      split at hparse
      · exact (Prod.mk.inj (Except.ok.inj hparse)).2
      · exact (Prod.mk.inj (Except.ok.inj hparse)).2
    exact ⟨mid, mid', (reads_primary h hclose).sound hprimary,
      (reads_predicates h).sound hpredicates, (reads_stepsAfter h).sound hsteps⟩
  complete := by
    rintro _ ts rest ⟨mid, mid', hprimary, hpredicates, hafter⟩ hfollow
    have hmid' : follow mid' ≤ 8 := by
      cases hafter with
      | none => exact Nat.le_succ_of_le hfollow
      | some ht _ => exact Nat.le_of_eq ((binds_separator.strength_iff _).mp ht)
    obtain ⟨primary, hprimary⟩ :=
      (reads_primary h hclose).accepts hprimary (follow_le mid)
    obtain ⟨predicates, hpredicates⟩ :=
      (reads_predicates h).accepts hpredicates hmid'
    obtain ⟨steps, hsteps⟩ := (reads_stepsAfter h).accepts hafter hfollow
    refine ⟨if predicates.isEmpty && steps.isEmpty then primary
      else .filter primary predicates steps, rfl, ?_⟩
    rw [parseFilter, hprimary, ok_bind]
    dsimp only
    rw [hpredicates, ok_bind]
    dsimp only
    rw [hsteps, ok_bind]
    dsimp only
    split
    · rfl
    · rfl
  shrinks := by
    rintro _ ts rest ⟨mid, mid', hprimary, hpredicates, hafter⟩
    have h1 := (reads_primary h hclose).rest_le hprimary
    have h2 := length_le_of_predicates h hpredicates
    have h3 := (reads_stepsAfter h).rest_le hafter
    omega

theorem reads_path (h : Reads nested N 0)
    (hclose : ∀ more e, nested (.closeParen :: more) ≠ .ok e) :
    Reads (parsePath nested) (Grammar.Path N) 7 where
  sound := by
    intro ts e rest hparse
    unfold parsePath at hparse
    split at hparse
    · split at hparse
      · obtain ⟨⟨steps, rest'⟩, hsteps, heq⟩ := map_eq_ok_iff.mp hparse
        obtain ⟨-, rfl⟩ := Prod.mk.inj heq
        exact .absolute (Or.inl rfl) ((reads_steps h).sound hsteps)
      next hbegins =>
        obtain ⟨-, rfl⟩ := Prod.mk.inj (Except.ok.inj hparse)
        exact .document fun hstep => hbegins ((beginsStep_iff _).mpr hstep)
    · obtain ⟨⟨steps, rest'⟩, hsteps, heq⟩ := map_eq_ok_iff.mp hparse
      obtain ⟨-, rfl⟩ := Prod.mk.inj heq
      exact .absolute (Or.inr rfl) ((reads_steps h).sound hsteps)
    · split at hparse
      · obtain ⟨⟨steps, rest'⟩, hsteps, heq⟩ := map_eq_ok_iff.mp hparse
        obtain ⟨-, rfl⟩ := Prod.mk.inj heq
        exact .relative ((reads_steps h).sound hsteps)
      · exact .filter ((reads_filter h hclose).sound hparse)
  complete := by
    intro _ ts rest hpath hfollow
    cases hpath with
    | document hbegins =>
      refine ⟨.path true [], rfl, ?_⟩
      rw [parsePath, if_neg fun hstep => hbegins ((beginsStep_iff _).mp hstep)]
    | absolute ht hsteps =>
      obtain ⟨steps, hparse⟩ := (reads_steps h).accepts hsteps hfollow
      have hbegins := (beginsStep_iff _).mpr (beginsStep_of_steps hsteps hfollow)
      rcases ht with rfl | rfl
      · exact ⟨.path true steps, rfl, by rw [parsePath, if_pos hbegins, hparse, map_ok]⟩
      · exact ⟨.path true (Step.everywhere :: steps), rfl, by rw [parsePath, hparse, map_ok]⟩
    | relative hsteps =>
      -- Steps begin as no other path does, so the parser looks for nothing else.
      obtain ⟨steps, hparse⟩ := (reads_steps h).accepts hsteps hfollow
      have hbegins := (beginsStep_iff _).mpr (beginsStep_of_steps hsteps hfollow)
      refine ⟨.path false steps, rfl, ?_⟩
      rw [parsePath_of_ne, if_pos hbegins, hparse, map_ok]
      rintro t more ht rfl
      rw [not_beginsStep_of_isSeparator ht] at hbegins
      exact Bool.noConfusion hbegins
    | filter hfilter =>
      obtain ⟨e, hparse⟩ := (reads_filter h hclose).accepts hfilter hfollow
      obtain ⟨mid, mid', hprimary, -, -⟩ := hfilter
      refine ⟨e, rfl, ?_⟩
      rw [parsePath_of_ne, not_beginsStep_of_primary hprimary]
      · exact hparse
      · rintro t more ht rfl
        exact not_primary_of_isSeparator ht hprimary
  shrinks := by
    intro _ ts rest hpath
    cases hpath with
    | document => exact Nat.le_succ _
    | absolute _ hsteps => exact Nat.le_succ_of_le ((reads_steps h).rest_le hsteps)
    | relative hsteps => exact (reads_steps h).rest_le hsteps
    | filter hfilter => exact (reads_filter h hclose).rest_le hfilter

/-! ### Levels of binding -/

theorem binds_pipe : Binds Grammar.IsPipe Token.pipe? 7 where
  operator_iff t := by
    cases t <;> simp [Grammar.IsPipe, Token.pipe?]
  strength_iff t := by
    cases t with
    | name n => simp [Grammar.IsPipe, strength_name_iff]
    | _ => simp [Grammar.IsPipe, Token.strength]

theorem binds_sum : Binds Grammar.IsSum Token.sum? 5 where
  operator_iff t := by
    cases t <;> simp [Grammar.IsSum, Token.sum?]
  strength_iff t := by
    cases t with
    | name n => simp [Grammar.IsSum, strength_name_iff]
    | _ => simp [Grammar.IsSum, Token.strength]

theorem binds_order : Binds Grammar.IsOrder Token.order? 4 where
  operator_iff t := by
    cases t <;> simp [Grammar.IsOrder, Token.order?]
  strength_iff t := by
    cases t with
    | name n => simp [Grammar.IsOrder, strength_name_iff]
    | _ => simp [Grammar.IsOrder, Token.strength]

theorem binds_equality : Binds Grammar.IsEquality Token.equality? 3 where
  operator_iff t := by
    cases t <;> simp [Grammar.IsEquality, Token.equality?]
  strength_iff t := by
    cases t with
    | name n => simp [Grammar.IsEquality, strength_name_iff]
    | _ => simp [Grammar.IsEquality, Token.strength]

theorem binds_product : Binds Grammar.IsProduct Token.product? 6 where
  operator_iff t := by
    cases t with
    | name n =>
      by_cases hdiv : n = "div"
      · simp [Grammar.IsProduct, Token.product?, hdiv]
      · by_cases hmod : n = "mod"
        · simp [Grammar.IsProduct, Token.product?, hmod]
        · simp [Grammar.IsProduct, Token.product?, hdiv, hmod]
    | _ => simp [Grammar.IsProduct, Token.product?]
  strength_iff t := by
    cases t with
    | name n => simp [Grammar.IsProduct, strength_name_iff]
    | _ => simp [Grammar.IsProduct, Token.strength]

theorem binds_and : Binds Grammar.IsAnd (Token.isWord "and") 2 where
  operator_iff t := by
    cases t <;> simp [Grammar.IsAnd, Token.isWord]
  strength_iff t := by
    cases t with
    | name n => simp [Grammar.IsAnd, strength_name_iff]
    | _ => simp [Grammar.IsAnd, Token.strength]

theorem binds_or : Binds Grammar.IsOr (Token.isWord "or") 1 where
  operator_iff t := by
    cases t <;> simp [Grammar.IsOr, Token.isWord]
  strength_iff t := by
    cases t with
    | name n => simp [Grammar.IsOr, strength_name_iff]
    | _ => simp [Grammar.IsOr, Token.strength]

theorem reads_union (h : Reads nested N 0)
    (hclose : ∀ more e, nested (.closeParen :: more) ≠ .ok e) :
    Reads (parseUnion nested) (Grammar.Union N) 6 :=
  ((reads_path h hclose).chain binds_pipe).map _

/-- No operand begins with a minus sign. -/
theorem parseUnion_minus (more : List Token) : parseUnion nested (.minus :: more) =
    .error (.unexpected .minus) :=
  rfl

theorem sign_of_splitMinus {ts rest : List Token}
    (h : Grammar.Union N (splitMinus ts).2 rest) : Grammar.Sign N ts rest := by
  fun_induction splitMinus ts with
  | case1 more ih => exact .minus (ih h)
  | case2 ts => exact .operand h

theorem reads_sign (h : Reads nested N 0)
    (hclose : ∀ more e, nested (.closeParen :: more) ≠ .ok e) :
    Reads (parseSign nested) (Grammar.Sign N) 6 where
  sound := by
    intro ts e rest hparse
    rw [parseSign] at hparse
    obtain ⟨⟨operand, rest'⟩, hoperand, heq⟩ := map_eq_ok_iff.mp hparse
    obtain ⟨-, rfl⟩ := Prod.mk.inj heq
    exact sign_of_splitMinus ((reads_union h hclose).sound hoperand)
  complete := by
    intro _ ts rest hsign hfollow
    have hoperand : ∃ operand, parseUnion nested (splitMinus ts).2 = .ok (operand, rest) := by
      induction hsign with
      | @operand ts rest hunion =>
        obtain ⟨operand, hparse⟩ := (reads_union h hclose).accepts hunion hfollow
        have hplain : splitMinus ts = (0, ts) := by
          rw [splitMinus]
          rintro more rfl
          rw [parseUnion_minus] at hparse
          exact absurd hparse (by simp)
        exact ⟨operand, by rw [hplain]; exact hparse⟩
      | minus _ ih => exact ih hfollow
    obtain ⟨operand, hparse⟩ := hoperand
    refine ⟨Expr.negated (splitMinus ts).1 operand, rfl, ?_⟩
    simp only [parseSign, hparse, map_ok]
  shrinks := by
    intro _ ts rest hsign
    induction hsign with
    | operand hunion => exact (reads_union h hclose).rest_le hunion
    | minus _ ih => exact Nat.le_succ_of_le ih

theorem reads_product (h : Reads nested N 0)
    (hclose : ∀ more e, nested (.closeParen :: more) ≠ .ok e) :
    Reads (parseProduct nested) (Grammar.Product N) 5 :=
  ((reads_sign h hclose).chain binds_product).map _

theorem reads_sum (h : Reads nested N 0)
    (hclose : ∀ more e, nested (.closeParen :: more) ≠ .ok e) :
    Reads (parseSum nested) (Grammar.Sum N) 4 :=
  ((reads_product h hclose).chain binds_sum).map _

theorem reads_order (h : Reads nested N 0)
    (hclose : ∀ more e, nested (.closeParen :: more) ≠ .ok e) :
    Reads (parseOrder nested) (Grammar.Order N) 3 :=
  ((reads_sum h hclose).chain binds_order).map _

theorem reads_equality (h : Reads nested N 0)
    (hclose : ∀ more e, nested (.closeParen :: more) ≠ .ok e) :
    Reads (parseEquality nested) (Grammar.Equality N) 2 :=
  ((reads_order h hclose).chain binds_equality).map _

theorem reads_both (h : Reads nested N 0)
    (hclose : ∀ more e, nested (.closeParen :: more) ≠ .ok e) :
    Reads (parseBoth nested) (Grammar.Both N) 1 :=
  ((reads_equality h hclose).chain binds_and).map _

/-- **All levels of binding are read**, from the sign to the alternative. -/
theorem reads_either (h : Reads nested N 0)
    (hclose : ∀ more e, nested (.closeParen :: more) ≠ .ok e) :
    Reads (parseEither nested) (Grammar.Either N) 0 :=
  ((reads_both h hclose).chain binds_or).map _

end Nested

/-! ### Whole expressions -/

theorem parseExpr_closeParen (levels : Nat) (more : List Token) (e : Expr × List Token) :
    parseExpr levels (.closeParen :: more) ≠ .ok e := by
  cases levels with
  | zero => simp [parseExpr]
  | succ levels =>
    have herror : parseExpr (levels + 1) (.closeParen :: more) =
        .error (.unexpected .closeParen) := rfl
    rw [herror]
    simp

/-- **Nested expressions are read**, level by level. -/
theorem reads_nested (levels : Nat) : Reads (parseExpr levels) (Grammar.Nested levels) 0 := by
  induction levels with
  | zero =>
    refine ⟨?_, ?_, ?_⟩
    · intro ts e rest h
      exact absurd h (by simp [parseExpr])
    · intro _ ts rest h
      exact h.elim
    · intro _ ts rest h
      exact h.elim
  | succ levels ih => exact reads_either ih (parseExpr_closeParen levels)

/-- **The parser accepts exactly the grammar**: tokens give an expression iff they are derived as
one that is not nested too deep. -/
theorem accepted_iff_isExpression (ts : List Token) :
    (∃ e, Expr.ofTokens ts = .ok e) ↔ Grammar.IsExpression ts := by
  rw [Grammar.IsExpression]
  constructor
  · rintro ⟨e, h⟩
    rw [Expr.ofTokens] at h
    split at h
    · exact absurd h (by simp)
    · obtain ⟨⟨e', rest⟩, hparse, h⟩ := bind_eq_ok_iff.mp h
      cases rest with
      | nil => exact (reads_nested depthLimit).sound hparse
      | cons t more => exact absurd h (by simp)
  · intro h
    obtain ⟨e, hparse⟩ := (reads_nested depthLimit).accepts h (Nat.le_refl 0)
    refine ⟨e, ?_⟩
    cases ts with
    | nil =>
      have herror : parseExpr depthLimit [] = .error .endOfExpression := rfl
      rw [herror] at hparse
      exact absurd hparse (by simp)
    | cons t more =>
      simp only [Expr.ofTokens, List.isEmpty_cons, Bool.false_eq_true, if_false, hparse, ok_bind,
        pure_eq_ok]

/-- The name of an operator is the name of an element where an operand is due. -/
example : Expr.ofTokens [.doubleSlash, .name "or", .name "or", .name "div"] =
    .ok (.either [.path true [Step.everywhere, .step .child (.name "or") []],
      .path false [.step .child (.name "div") []]]) := by
  rfl

end ScreenInspector.Expression
