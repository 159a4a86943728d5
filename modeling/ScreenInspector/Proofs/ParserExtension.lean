/-
  ScreenInspector/Proofs/ParserExtension.lean
  ===========================================
  **What follows an expression, and how deep it may stand.**

  A parser that reads tokens to some point reads the same before anything that closes what is
  around it: a closing bracket, a comma, or nothing.  And with one level less it reads the same
  again, unless the levels do not suffice; then it says so, whatever follows.  Both are one relation
  between three runs (`Carries`): the run on the tokens alone, the run on them with one level less,
  and this one again with something behind the tokens.

  The relation passes from the parts of a parser to the parser (`Carries.bind`).  So there is one
  lemma for each parser, as there is one definition, and the loops need the number of rounds to
  suffice on either side.  Where a parser looks at the next token, the end of the tokens and a
  closing token are the same to it; this is the only thing asked of what follows (`follow`).

  The knot is tied by induction on the number of levels (`extends_parseExpr`).
-/
import ScreenInspector.Proofs.GrammarRecognition

namespace ScreenInspector.Expression

/-! ### Three runs -/

/-- If the first run reads something, then the second reads the same, and the third reads the same
with more tokens left; or the second and the third run both stop because the levels are used up. -/
def Carries {α : Type} (more : List Token) (deep shallow longer : Except Fault (α × List Token)) :
    Prop :=
  ∀ a rest, deep = .ok (a, rest) →
    (shallow = .ok (a, rest) ∧ longer = .ok (a, rest ++ more)) ∨
      (shallow = .error .tooDeep ∧ longer = .error .tooDeep)

/-- A parser reads what another reads, on all tokens and before more of them. -/
def Extends {α : Type} (more : List Token) (deep shallow : Parser α) : Prop :=
  ∀ ts, Carries more (deep ts) (shallow ts) (shallow (ts ++ more))

namespace Carries

variable {α β : Type} {more : List Token}

theorem ok (a : α) (rest : List Token) :
    Carries more (.ok (a, rest)) (.ok (a, rest)) (.ok (a, rest ++ more)) := by
  intro b rest' h
  obtain ⟨rfl, rfl⟩ := Prod.mk.inj (Except.ok.inj h)
  exact Or.inl ⟨rfl, rfl⟩

theorem of_error {fault : Fault} {deep shallow longer : Except Fault (α × List Token)}
    (h : deep = .error fault) : Carries more deep shallow longer := by
  intro a rest hok
  rw [h] at hok
  cases hok

/-- **Steps one after the other**: the relation of the first steps, and that of all that may come
after them. -/
theorem bind {deep shallow longer : Except Fault (α × List Token)}
    {f g k : α × List Token → Except Fault (β × List Token)}
    (h : Carries more deep shallow longer)
    (hrest : ∀ a rest, deep = .ok (a, rest) →
      Carries more (f (a, rest)) (g (a, rest)) (k (a, rest ++ more))) :
    Carries more (deep >>= f) (shallow >>= g) (longer >>= k) := by
  intro b rest' hok
  obtain ⟨⟨a, rest⟩, ha, hb⟩ := bind_eq_ok_iff.mp hok
  rcases h a rest ha with ⟨hshallow, hlonger⟩ | ⟨hshallow, hlonger⟩
  · rw [hshallow, hlonger]
    exact hrest a rest ha b rest' hb
  · rw [hshallow, hlonger]
    exact Or.inr ⟨rfl, rfl⟩

theorem map {deep shallow longer : Except Fault (α × List Token)}
    (h : Carries more deep shallow longer) (f : α → β) :
    Carries more (deep.map fun (a, rest) => (f a, rest)) (shallow.map fun (a, rest) => (f a, rest))
      (longer.map fun (a, rest) => (f a, rest)) := by
  intro b rest' hok
  obtain ⟨⟨a, rest⟩, ha, heq⟩ := map_eq_ok_iff.mp hok
  obtain ⟨rfl, rfl⟩ := Prod.mk.inj heq
  rcases h a rest ha with ⟨hshallow, hlonger⟩ | ⟨hshallow, hlonger⟩
  · rw [hshallow, hlonger]
    exact Or.inl ⟨rfl, rfl⟩
  · rw [hshallow, hlonger]
    exact Or.inr ⟨rfl, rfl⟩

/-- A token that has to come, and what comes after it. -/
theorem bind_expect {t : Token} (ht : ∀ value, t ≠ .number value)
    {f g k : List Token → Except Fault (α × List Token)} (ts : List Token)
    (hrest : ∀ rest, ts = t :: rest → Carries more (f rest) (g rest) (k (rest ++ more))) :
    Carries more (expect t ts >>= f) (expect t ts >>= g) (expect t (ts ++ more) >>= k) := by
  cases hts : expect t ts with
  | error fault => exact of_error rfl
  | ok rest =>
    obtain rfl := (expect_eq_ok_iff ht).mp hts
    have hlonger : expect t (t :: rest ++ more) = .ok (rest ++ more) :=
      (expect_eq_ok_iff ht).mpr rfl
    rw [hlonger]
    exact hrest rest rfl

end Carries

/-! ### Closing tokens -/

theorem closing_cases {more : List Token} (h : follow more = 0) :
    more = [] ∨ (∃ rest, more = .closeParen :: rest) ∨ (∃ rest, more = .closeBracket :: rest) ∨
      ∃ rest, more = .comma :: rest := by
  cases more with
  | nil => exact Or.inl rfl
  | cons t rest =>
    cases t with
    | closeParen => exact Or.inr (Or.inl ⟨rest, rfl⟩)
    | closeBracket => exact Or.inr (Or.inr (Or.inl ⟨rest, rfl⟩))
    | comma => exact Or.inr (Or.inr (Or.inr ⟨rest, rfl⟩))
    | name n =>
      have hstrength := (strength_name_iff (n := n) (k := 0) (by decide)).mp h
      simp at hstrength
    | _ => simp [follow, Token.strength] at h

/-- What does not begin with a token that binds does not when closing tokens are put behind it. -/
theorem append_ne_of_follow {more ts : List Token} (hmore : follow more = 0) {t : Token}
    (ht : 0 < t.strength) (hts : ∀ rest, ts ≠ t :: rest) (rest : List Token) :
    ts ++ more ≠ t :: rest := by
  intro heq
  cases ts with
  | nil =>
    rw [List.nil_append] at heq
    rw [heq, follow] at hmore
    omega
  | cons t' ts =>
    obtain ⟨rfl, -⟩ := List.cons.inj heq
    exact hts ts rfl

theorem beginsStep_append {more : List Token} (hmore : follow more = 0) (ts : List Token) :
    beginsStep (ts ++ more) = beginsStep ts := by
  cases ts with
  | nil => rcases closing_cases hmore with rfl | ⟨rest, rfl⟩ | ⟨rest, rfl⟩ | ⟨rest, rfl⟩ <;> rfl
  | cons t rest =>
    cases t with
    | name n =>
      cases rest with
      | nil =>
        rcases closing_cases hmore with rfl | ⟨rest, rfl⟩ | ⟨rest, rfl⟩ | ⟨rest, rfl⟩ <;> rfl
      | cons t' rest => cases t' <;> rfl
    | _ => rfl

/-! ### Chains -/

section Chain

variable {α β : Type} {more : List Token} {operator : Token → Option β} {deep shallow : Parser α}

theorem chainTail_stop {operand : Parser α} (hstop : ∀ t ∈ more.head?, operator t = none)
    (fuel : Nat) : chainTail operator operand fuel more = .ok ([], more) := by
  cases fuel with
  | zero => rfl
  | succ fuel =>
    cases more with
    | nil => rfl
    | cons t rest => simp only [chainTail, hstop t rfl]

theorem carries_chainTail (h : Extends more deep shallow)
    (hshrinks : ∀ {ts a rest}, deep ts = .ok (a, rest) → rest.length ≤ ts.length)
    (hstop : ∀ t ∈ more.head?, operator t = none) {fuel fuel' : Nat} {ts : List Token}
    (hfuel : ts.length ≤ fuel) (hfuel' : (ts ++ more).length ≤ fuel') :
    Carries more (chainTail operator deep fuel ts) (chainTail operator shallow fuel ts)
      (chainTail operator shallow fuel' (ts ++ more)) := by
  induction fuel generalizing ts fuel' with
  | zero =>
    obtain rfl := List.eq_nil_of_length_eq_zero (Nat.le_zero.mp hfuel)
    rw [List.nil_append, chainTail_stop hstop]
    exact Carries.ok _ []
  | succ fuel ih =>
    cases ts with
    | nil =>
      rw [List.nil_append, chainTail_stop hstop]
      exact Carries.ok _ []
    | cons t ts =>
      rw [List.cons_append, List.length_cons] at hfuel'
      obtain ⟨fuel', rfl⟩ := Nat.exists_eq_add_of_le' (Nat.le_trans (Nat.succ_pos _) hfuel')
      rw [List.length_cons] at hfuel
      cases ho : operator t with
      | none =>
        simp only [chainTail, ho, List.cons_append]
        exact Carries.ok _ (t :: ts)
      | some o =>
        simp only [chainTail, ho, List.cons_append]
        apply (h ts).bind
        intro a mid ha
        have hmid := hshrinks ha
        have hleft : mid.length ≤ fuel := by omega
        have hleft' : (mid ++ more).length ≤ fuel' := by
          rw [List.length_append] at hfuel' ⊢
          omega
        apply (ih hleft hleft').bind
        intro rest left _
        exact Carries.ok _ left

theorem Extends.chain (h : Extends more deep shallow)
    (hshrinks : ∀ {ts a rest}, deep ts = .ok (a, rest) → rest.length ≤ ts.length)
    (hstop : ∀ t ∈ more.head?, operator t = none) :
    Extends more (chain operator deep) (chain operator shallow) := by
  intro ts
  apply (h ts).bind
  intro a mid _
  apply (carries_chainTail h hshrinks hstop (Nat.le_refl _) (Nat.le_refl _)).bind
  intro rest left _
  exact Carries.ok _ left

theorem Extends.map {γ : Type} (h : Extends more deep shallow) (f : α → γ) :
    Extends more (fun ts => (deep ts).map fun (a, rest) => (f a, rest))
      (fun ts => (shallow ts).map fun (a, rest) => (f a, rest)) :=
  fun ts => (h ts).map f

end Chain

section Nested

variable {more : List Token} {deep shallow : Parser Expr} {N : Grammar.Language}

/-! ### Steps -/

theorem predicatesLoop_of_ne {fuel : Nat} {ts : List Token}
    (h : ∀ rest, ts ≠ .openBracket :: rest) :
    parsePredicatesLoop deep fuel ts = .ok ([], ts) := by
  unfold parsePredicatesLoop
  split
  next rest => exact absurd rfl (h rest)
  next => rfl

theorem carries_predicatesLoop (hmore : follow more = 0) (h : Extends more deep shallow)
    (hreads : Reads deep N 0) {fuel fuel' : Nat} {ts : List Token} (hfuel : ts.length ≤ fuel)
    (hfuel' : (ts ++ more).length ≤ fuel') :
    Carries more (parsePredicatesLoop deep fuel ts) (parsePredicatesLoop shallow fuel ts)
      (parsePredicatesLoop shallow fuel' (ts ++ more)) := by
  induction fuel generalizing ts fuel' with
  | zero =>
    obtain rfl := List.eq_nil_of_length_eq_zero (Nat.le_zero.mp hfuel)
    have hstop : parsePredicatesLoop shallow fuel' more = .ok ([], more) :=
      predicatesLoop_stop (by omega)
    rw [List.nil_append, hstop]
    exact Carries.ok _ []
  | succ fuel ih =>
    by_cases hopen : ∃ rest, ts = .openBracket :: rest
    · obtain ⟨ts, rfl⟩ := hopen
      rw [List.cons_append, List.length_cons] at hfuel'
      obtain ⟨fuel', rfl⟩ := Nat.exists_eq_add_of_le' (Nat.le_trans (Nat.succ_pos _) hfuel')
      rw [List.length_cons] at hfuel
      rw [List.cons_append]
      simp only [parsePredicatesLoop]
      apply (h ts).bind
      intro e mid he
      apply Carries.bind_expect (by simp)
      intro after hafter
      obtain rfl : mid = .closeBracket :: after := hafter
      have hmid := hreads.length_le he
      rw [List.length_cons] at hmid
      have hleft : after.length ≤ fuel := by omega
      have hleft' : (after ++ more).length ≤ fuel' := by
        rw [List.length_append] at hfuel' ⊢
        omega
      apply (ih hleft hleft').bind
      intro predicates left _
      exact Carries.ok _ left
    · have hne : ∀ rest, ts ≠ .openBracket :: rest := fun rest heq => hopen ⟨rest, heq⟩
      rw [predicatesLoop_of_ne hne, predicatesLoop_of_ne hne,
        predicatesLoop_of_ne (append_ne_of_follow hmore (by decide) hne)]
      exact Carries.ok _ ts

theorem extends_predicates (hmore : follow more = 0) (h : Extends more deep shallow)
    (hreads : Reads deep N 0) : Extends more (parsePredicates deep) (parsePredicates shallow) :=
  fun _ => carries_predicatesLoop hmore h hreads (Nat.le_refl _) (Nat.le_refl _)

theorem extends_test (hmore : follow more = 0) : Extends more parseTest parseTest := by
  intro ts test rest h
  refine Or.inl ⟨h, ?_⟩
  unfold parseTest at h
  split at h
  · obtain ⟨rfl, rfl⟩ := Prod.mk.inj (Except.ok.inj h)
    rfl
  next n after =>
    split at h
    next hn =>
      subst hn
      obtain ⟨after', hclose, heq⟩ := map_eq_ok_iff.mp h
      obtain ⟨rfl, rfl⟩ := Prod.mk.inj heq
      rw [closeParen_eq_ok_iff.mp hclose]
      rfl
    next =>
      split at h
      next hn =>
        subst hn
        obtain ⟨after', hclose, heq⟩ := map_eq_ok_iff.mp h
        obtain ⟨rfl, rfl⟩ := Prod.mk.inj heq
        rw [closeParen_eq_ok_iff.mp hclose]
        rfl
      next => exact absurd h (by simp)
  next n after hparen =>
    obtain ⟨rfl, rfl⟩ := Prod.mk.inj (Except.ok.inj h)
    have hne : ∀ rest, after ≠ .openParen :: rest := fun rest heq => hparen rest heq
    exact parseTest_name (append_ne_of_follow hmore (by decide) hne)
  · exact absurd h (by simp)

theorem extends_stepOn (hmore : follow more = 0) (h : Extends more deep shallow)
    (hreads : Reads deep N 0) (axis : Axis) :
    Extends more (parseStepOn deep axis) (parseStepOn shallow axis) := by
  intro ts
  apply (extends_test hmore ts).bind
  intro test mid _
  apply (extends_predicates hmore h hreads mid).bind
  intro predicates rest _
  dsimp only
  split
  · exact Carries.of_error rfl
  · exact Carries.ok _ rest

theorem extends_step (hmore : follow more = 0) (h : Extends more deep shallow)
    (hreads : Reads deep N 0) : Extends more (parseStep deep) (parseStep shallow) := by
  intro ts
  have hchild := extends_stepOn hmore h hreads .child ts
  cases ts with
  | nil => exact Carries.of_error rfl
  | cons t rest =>
    cases t with
    | dot => exact Carries.ok _ rest
    | doubleDot => exact Carries.ok _ rest
    | «at» => exact extends_stepOn hmore h hreads .attribute rest
    | name n =>
      cases rest with
      | nil =>
        rcases closing_cases hmore with rfl | ⟨after, rfl⟩ | ⟨after, rfl⟩ | ⟨after, rfl⟩
        · exact hchild
        · exact hchild
        · exact hchild
        · exact hchild
      | cons t' rest =>
        cases t' with
        | doubleColon =>
          simp only [parseStep, List.cons_append]
          cases Axis.ofName? n with
          | none => exact Carries.of_error rfl
          | some axis => exact extends_stepOn hmore h hreads axis rest
        | _ => exact hchild
    | _ => exact hchild

theorem stops_of_binds {β : Type} {IsOperator : Token → Prop} {operator : Token → Option β}
    {bound : Nat} (hbinds : Binds IsOperator operator (bound + 1)) (hmore : follow more = 0) :
    ∀ t ∈ more.head?, operator t = none :=
  hbinds.none_of_follow_le (hmore ▸ Nat.zero_le bound)

theorem extends_steps (hmore : follow more = 0) (h : Extends more deep shallow)
    (hreads : Reads deep N 0) : Extends more (parseSteps deep) (parseSteps shallow) := by
  intro ts
  have hchain := (extends_step hmore h hreads).chain (recognizes_step hreads).length_le
    (stops_of_binds binds_separator hmore)
  apply (hchain ts).bind
  intro steps rest _
  dsimp only
  split
  · exact Carries.of_error rfl
  · exact Carries.ok _ rest

/-! ### Primary expressions -/

theorem carries_argumentsLoop (h : Extends more deep shallow) {fuel fuel' : Nat}
    (hfuel : fuel ≤ fuel') (ts : List Token) :
    Carries more (parseArgumentsLoop deep fuel ts) (parseArgumentsLoop shallow fuel ts)
      (parseArgumentsLoop shallow fuel' (ts ++ more)) := by
  induction fuel generalizing ts fuel' with
  | zero => exact Carries.of_error rfl
  | succ fuel ih =>
    obtain ⟨fuel', rfl⟩ := Nat.exists_eq_add_of_le' (Nat.le_trans (Nat.succ_pos _) hfuel)
    simp only [parseArgumentsLoop]
    apply (h ts).bind
    intro e mid _
    cases mid with
    | nil => exact Carries.of_error rfl
    | cons t rest =>
      cases t with
      | comma =>
        apply (ih (Nat.le_of_succ_le_succ hfuel) rest).bind
        intro arguments left _
        exact Carries.ok _ left
      | closeParen => exact Carries.ok _ rest
      | _ => exact Carries.of_error rfl

theorem extends_arguments (h : Extends more deep shallow) (hnil : ∀ e, deep [] ≠ .ok e) :
    Extends more (parseArguments deep) (parseArguments shallow) := by
  intro ts
  cases ts with
  | nil =>
    intro arguments rest hok
    obtain ⟨e, he, -⟩ := bind_eq_ok_iff.mp hok
    exact absurd he (hnil e)
  | cons t rest =>
    have hlength : (t :: rest).length + 1 ≤ (t :: rest ++ more).length + 1 := by simp
    have hloop := carries_argumentsLoop h hlength (t :: rest)
    cases t with
    | closeParen => exact Carries.ok _ rest
    | _ => exact hloop

theorem extends_call (h : Extends more deep shallow) (hnil : ∀ e, deep [] ≠ .ok e) (n : String) :
    Extends more (parseCall deep n) (parseCall shallow n) := by
  intro ts
  simp only [parseCall]
  cases Function.ofWord? n with
  | none => exact Carries.of_error rfl
  | some f =>
    apply (extends_arguments h hnil ts).bind
    intro arguments rest _
    dsimp only
    split
    · exact Carries.ok _ rest
    · exact Carries.of_error rfl

theorem extends_primary (h : Extends more deep shallow) (hnil : ∀ e, deep [] ≠ .ok e) :
    Extends more (parsePrimary deep) (parsePrimary shallow) := by
  intro ts
  cases ts with
  | nil => exact Carries.of_error rfl
  | cons t rest =>
    cases t with
    | openParen =>
      apply (h rest).bind
      intro e mid _
      apply Carries.bind_expect (by simp)
      intro after _
      exact Carries.ok _ after
    | literal text => exact Carries.ok _ rest
    | number value => exact Carries.ok _ rest
    | name n =>
      cases rest with
      | nil => exact Carries.of_error rfl
      | cons t' rest =>
        cases t' with
        | openParen => exact extends_call h hnil n rest
        | _ => exact Carries.of_error rfl
    | _ => exact Carries.of_error rfl

/-! ### Levels of binding -/

theorem extends_stepsAfter (hmore : follow more = 0) (h : Extends more deep shallow)
    (hreads : Reads deep N 0) : Extends more (parseStepsAfter deep) (parseStepsAfter shallow) := by
  intro ts
  cases ts with
  | nil =>
    rcases closing_cases hmore with rfl | ⟨rest, rfl⟩ | ⟨rest, rfl⟩ | ⟨rest, rfl⟩ <;>
      exact Carries.ok _ []
  | cons t rest =>
    cases t with
    | slash => exact extends_steps hmore h hreads rest
    | doubleSlash => exact (extends_steps hmore h hreads rest).map _
    | _ => exact Carries.ok _ (_ :: rest)

theorem extends_filter (hmore : follow more = 0) (h : Extends more deep shallow)
    (hreads : Reads deep N 0) (hnil : ∀ e, deep [] ≠ .ok e) :
    Extends more (parseFilter deep) (parseFilter shallow) := by
  intro ts
  apply (extends_primary h hnil ts).bind
  intro primary mid _
  apply (extends_predicates hmore h hreads mid).bind
  intro predicates mid' _
  apply (extends_stepsAfter hmore h hreads mid').bind
  intro steps rest _
  dsimp only
  split
  · exact Carries.ok _ rest
  · exact Carries.ok _ rest

theorem extends_path (hmore : follow more = 0) (h : Extends more deep shallow)
    (hreads : Reads deep N 0) (hnil : ∀ e, deep [] ≠ .ok e) :
    Extends more (parsePath deep) (parsePath shallow) := by
  intro ts
  have hsteps := extends_steps hmore h hreads
  -- What begins with no slash is read as steps or as a filter, with or without more behind it.
  have hplain : (∀ t rest, Grammar.IsSeparator t → ts ≠ t :: rest) →
      Carries more (parsePath deep ts) (parsePath shallow ts) (parsePath shallow (ts ++ more)) := by
    intro hne
    have hne' : ∀ t rest, Grammar.IsSeparator t → ts ++ more ≠ t :: rest := by
      intro t rest ht
      apply append_ne_of_follow hmore _ (fun rest => hne t rest ht) rest
      rw [(binds_separator.strength_iff t).mp ht]
      decide
    rw [parsePath_of_ne hne, parsePath_of_ne hne, parsePath_of_ne hne', beginsStep_append hmore]
    split
    · exact (hsteps ts).map _
    · exact extends_filter hmore h hreads hnil ts
  cases ts with
  | nil => exact hplain (by simp)
  | cons t rest =>
    cases t with
    | slash =>
      rw [List.cons_append]
      simp only [parsePath, beginsStep_append hmore]
      split
      · exact (hsteps rest).map _
      · exact Carries.ok _ rest
    | doubleSlash =>
      exact (hsteps rest).map fun steps => Expr.path true (Step.everywhere :: steps)
    | _ => exact hplain (by simp [Grammar.IsSeparator])

theorem splitMinus_append (hmore : follow more = 0) (ts : List Token) :
    splitMinus (ts ++ more) = ((splitMinus ts).1, (splitMinus ts).2 ++ more) := by
  fun_induction splitMinus ts with
  | case1 rest ih => rw [List.cons_append, splitMinus, ih]
  | case2 ts hts =>
    rw [splitMinus]
    exact append_ne_of_follow hmore (by decide) fun rest heq => hts rest heq

theorem extends_sign (hmore : follow more = 0) (h : Extends more deep shallow)
    (hreads : Reads deep N 0) (hclose : ∀ rest e, deep (.closeParen :: rest) ≠ .ok e)
    (hnil : ∀ e, deep [] ≠ .ok e) : Extends more (parseSign deep) (parseSign shallow) := by
  intro ts
  have hunion : Extends more (parseUnion deep) (parseUnion shallow) :=
    ((extends_path hmore h hreads hnil).chain (reads_path hreads hclose).length_le
      (stops_of_binds binds_pipe hmore)).map _
  simp only [parseSign, splitMinus_append hmore]
  exact (hunion (splitMinus ts).2).map _

/-- **All levels of binding carry over** from nested expressions. -/
theorem extends_either (hmore : follow more = 0) (h : Extends more deep shallow)
    (hreads : Reads deep N 0) (hclose : ∀ rest e, deep (.closeParen :: rest) ≠ .ok e)
    (hnil : ∀ e, deep [] ≠ .ok e) : Extends more (parseEither deep) (parseEither shallow) := by
  have hsign := extends_sign hmore h hreads hclose hnil
  have hproduct : Extends more (parseProduct deep) (parseProduct shallow) :=
    (hsign.chain (reads_sign hreads hclose).length_le (stops_of_binds binds_product hmore)).map _
  have hsum : Extends more (parseSum deep) (parseSum shallow) :=
    (hproduct.chain (reads_product hreads hclose).length_le (stops_of_binds binds_sum hmore)).map _
  have horder : Extends more (parseOrder deep) (parseOrder shallow) :=
    (hsum.chain (reads_sum hreads hclose).length_le (stops_of_binds binds_order hmore)).map _
  have hequality : Extends more (parseEquality deep) (parseEquality shallow) :=
    (horder.chain (reads_order hreads hclose).length_le (stops_of_binds binds_equality hmore)).map _
  have hboth : Extends more (parseBoth deep) (parseBoth shallow) :=
    (hequality.chain (reads_equality hreads hclose).length_le
      (stops_of_binds binds_and hmore)).map _
  exact (hboth.chain (reads_both hreads hclose).length_le (stops_of_binds binds_or hmore)).map _

end Nested

/-! ### Whole expressions -/

theorem parseExpr_nil (levels : Nat) (e : Expr × List Token) : parseExpr levels [] ≠ .ok e := by
  cases levels with
  | zero => simp [parseExpr]
  | succ levels =>
    have herror : parseExpr (levels + 1) [] = .error .endOfExpression := rfl
    rw [herror]
    simp

/-- **One level less and closing tokens behind it** do not change how an expression is read, unless
the levels do not suffice. -/
theorem extends_parseExpr {more : List Token} (hmore : follow more = 0) (levels : Nat) :
    Extends more (parseExpr (levels + 1)) (parseExpr levels) := by
  induction levels with
  | zero =>
    intro ts e rest _
    exact Or.inr ⟨rfl, rfl⟩
  | succ levels ih =>
    exact extends_either hmore ih (reads_nested (levels + 1)) (parseExpr_closeParen (levels + 1))
      (parseExpr_nil (levels + 1))

end ScreenInspector.Expression
