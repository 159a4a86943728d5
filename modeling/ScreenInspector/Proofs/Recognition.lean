/-
  ScreenInspector/Proofs/Recognition.lean
  =======================================
  **Parsers that recognize languages**, and chains of operands.

  A parser recognizes a language (`Recognizes`) if what it accepts is derived and if it accepts what
  is derived, provided that what follows does not bind too strongly: a derivation may stop anywhere,
  but the parser goes on as long as it can.  How strongly a token binds to the operand before it is
  its `strength`, from 0 for closing brackets to 9 for the bracket of a predicate; no operand is
  followed by a token of strength 10.

  Loops over operators are taken apart once (`chain_eq_ok_iff`), so that nothing after it speaks of
  rounds, and `Recognizes.chain` is the one lemma for all levels of binding.
-/
import ScreenInspector.Proofs.ExpressionGrammar
import ScreenInspector.Proofs.Outcomes

namespace ScreenInspector.Expression

/-! ### Strength -/

/-- How strongly a token binds to the operand before it. -/
def Token.strength : Token → Nat
  | .closeParen | .closeBracket | .comma => 0
  | .equal | .notEqual => 3
  | .less | .lessEqual | .greater | .greaterEqual => 4
  | .plus | .minus => 5
  | .star => 6
  | .name n =>
    if n = "or" then 1 else if n = "and" then 2 else if n = "div" ∨ n = "mod" then 6 else 10
  | .pipe => 7
  | .slash | .doubleSlash => 8
  | .openBracket => 9
  | _ => 10

/-- How strongly tokens bind to the operand before them; the end does not bind at all. -/
def follow : List Token → Nat
  | [] => 0
  | t :: _ => t.strength

/-- The names that join operands bind as their operators do, all others as no operator does. -/
theorem strength_name_iff {n : String} {k : Nat} (hk : k < 10) :
    (Token.name n).strength = k ↔
      n = "or" ∧ k = 1 ∨ n = "and" ∧ k = 2 ∨ (n = "div" ∨ n = "mod") ∧ k = 6 := by
  by_cases hor : n = "or"
  · simp [Token.strength, hor, eq_comm]
  by_cases hand : n = "and"
  · simp [Token.strength, hand, eq_comm]
  by_cases hproduct : n = "div" ∨ n = "mod"
  · simp only [Token.strength, hor, hand, hproduct, if_true, if_false, false_and, false_or, true_and]
    exact eq_comm
  · simp only [Token.strength, hor, hand, hproduct, if_false, false_and, false_or, iff_false]
    omega

theorem follow_le (ts : List Token) : follow ts ≤ 10 := by
  cases ts with
  | nil => exact Nat.zero_le 10
  | cons t rest =>
    cases t with
    | name n =>
      rw [follow, Token.strength]
      split
      · decide
      · split
        · decide
        · split
          · decide
          · decide
    | _ => simp [follow, Token.strength]

/-- A parser recognizes the language that belongs to its results, as a view of them tells. -/
structure Recognizes {α ι : Type} (view : α → ι) (p : Parser α) (L : ι → Grammar.Language)
    (bound : Nat) : Prop where
  sound : ∀ {ts a rest}, p ts = .ok (a, rest) → L (view a) ts rest
  complete : ∀ {i ts rest}, L i ts rest → follow rest ≤ bound →
    ∃ a, view a = i ∧ p ts = .ok (a, rest)
  shrinks : ∀ {i ts rest}, L i ts rest → rest.length ≤ ts.length

/-- A parser recognizes a language, whatever its results are. -/
abbrev Reads {α : Type} (p : Parser α) (L : Grammar.Language) (bound : Nat) : Prop :=
  Recognizes (fun _ => ()) p (fun _ => L) bound

/-- What is derived is accepted before anything that does not bind too strongly. -/
theorem Reads.accepts {α : Type} {p : Parser α} {L : Grammar.Language} {bound : Nat}
    (h : Reads p L bound) {ts rest : List Token} (hL : L ts rest) (hfollow : follow rest ≤ bound) :
    ∃ a, p ts = .ok (a, rest) := by
  obtain ⟨a, -, ha⟩ := h.complete (i := ()) hL hfollow
  exact ⟨a, ha⟩

theorem Reads.rest_le {α : Type} {p : Parser α} {L : Grammar.Language} {bound : Nat}
    (h : Reads p L bound) {ts rest : List Token} (hL : L ts rest) : rest.length ≤ ts.length :=
  h.shrinks (i := ()) hL

theorem Recognizes.length_le {α ι : Type} {view : α → ι} {p : Parser α} {L : ι → Grammar.Language}
    {bound : Nat} (h : Recognizes view p L bound) {ts : List Token} {a : α} {rest : List Token}
    (hp : p ts = .ok (a, rest)) : rest.length ≤ ts.length :=
  h.shrinks (h.sound hp)

/-- Changing the result changes nothing about what is read. -/
theorem Recognizes.map {α γ : Type} {p : Parser α} {L : Grammar.Language} {bound : Nat}
    (h : Reads p L bound) (g : α → γ) :
    Reads (fun ts => (p ts).map fun (a, rest) => (g a, rest)) L bound where
  sound := by
    intro ts c rest hp
    obtain ⟨⟨a, rest'⟩, ha, heq⟩ := map_eq_ok_iff.mp hp
    obtain ⟨-, rfl⟩ := Prod.mk.inj heq
    exact h.sound ha
  complete := by
    intro _ ts rest hL hfollow
    obtain ⟨a, ha⟩ := h.accepts hL hfollow
    exact ⟨g a, rfl, by simp only [ha, map_ok]⟩
  shrinks := fun {i} => h.shrinks (i := i)

/-! ### Operators -/

/-- The operators of one kind: what they are, how a loop sees them, and how strongly they bind. -/
structure Binds {β : Type} (IsOperator : Token → Prop) (operator : Token → Option β)
    (strength : Nat) : Prop where
  operator_iff : ∀ t, IsOperator t ↔ operator t ≠ none
  strength_iff : ∀ t, IsOperator t ↔ t.strength = strength

section Binds

variable {β : Type} {IsOperator : Token → Prop} {operator : Token → Option β} {strength : Nat}

theorem Binds.of_eq_some (h : Binds IsOperator operator strength) {t : Token} {o : β}
    (ho : operator t = some o) : IsOperator t := by
  apply (h.operator_iff t).mpr
  rw [ho]
  simp

theorem Binds.exists_eq_some (h : Binds IsOperator operator strength) {t : Token}
    (ht : IsOperator t) : ∃ o, operator t = some o :=
  Option.ne_none_iff_exists'.mp ((h.operator_iff t).mp ht)

/-- A loop stops at what binds less strongly than its operators. -/
theorem Binds.none_of_follow_le {bound : Nat} (h : Binds IsOperator operator (bound + 1))
    {ts : List Token} (hfollow : follow ts ≤ bound) : ∀ t ∈ ts.head?, operator t = none := by
  cases ts with
  | nil => simp
  | cons t rest =>
    simp only [List.head?_cons, Option.mem_def, Option.some.injEq]
    rintro _ rfl
    cases ho : operator t with
    | none => rfl
    | some o =>
      have hstrength := (h.strength_iff t).mp (h.of_eq_some ho)
      rw [follow, hstrength] at hfollow
      omega

end Binds

/-! ### Chains -/

/-- Operators with their right operands as a loop reads them, until there is no operator. -/
inductive Tail {α β : Type} (operator : Token → Option β) (operand : Parser α) :
    List Token → List (β × α) → List Token → Prop
  | stop {ts : List Token} : (∀ t ∈ ts.head?, operator t = none) → Tail operator operand ts [] ts
  | next {t : Token} {o : β} {ts mid rest : List Token} {a : α} {more : List (β × α)} :
      operator t = some o → operand ts = .ok (a, mid) → Tail operator operand mid more rest →
      Tail operator operand (t :: ts) ((o, a) :: more) rest

section Chain

variable {α β : Type} {operator : Token → Option β} {operand : Parser α}

theorem chainTail_eq_ok_iff
    (hshrinks : ∀ {ts a rest}, operand ts = .ok (a, rest) → rest.length ≤ ts.length)
    {fuel : Nat} {ts rest : List Token} {more : List (β × α)} (hfuel : ts.length ≤ fuel) :
    chainTail operator operand fuel ts = .ok (more, rest) ↔ Tail operator operand ts more rest := by
  induction fuel generalizing ts more with
  | zero =>
    obtain rfl : ts = [] := List.eq_nil_of_length_eq_zero (Nat.le_zero.mp hfuel)
    constructor
    · intro h
      obtain ⟨rfl, rfl⟩ := Prod.mk.inj (Except.ok.inj h)
      exact .stop (by simp)
    · intro h
      cases h
      rfl
  | succ fuel ih =>
    cases ts with
    | nil =>
      constructor
      · intro h
        obtain ⟨rfl, rfl⟩ := Prod.mk.inj (Except.ok.inj h)
        exact .stop (by simp)
      · intro h
        cases h
        rfl
    | cons t ts =>
      rw [List.length_cons] at hfuel
      cases ho : operator t with
      | none =>
        simp only [chainTail, ho]
        constructor
        · intro h
          obtain ⟨rfl, rfl⟩ := Prod.mk.inj (Except.ok.inj h)
          exact .stop (by simpa using ho)
        · intro h
          cases h with
          | stop _ => rfl
          | next hnext _ _ =>
            rw [ho] at hnext
            exact absurd hnext (by simp)
      | some o =>
        simp only [chainTail, ho]
        constructor
        · intro h
          obtain ⟨⟨a, mid⟩, ha, h⟩ := bind_eq_ok_iff.mp h
          obtain ⟨⟨more', rest'⟩, hmore, h⟩ := bind_eq_ok_iff.mp h
          obtain ⟨rfl, rfl⟩ := Prod.mk.inj (Except.ok.inj h)
          have hmid := hshrinks ha
          exact .next ho ha ((ih (by omega)).mp hmore)
        · intro h
          cases h with
          | stop hstop =>
            rw [hstop t rfl] at ho
            exact absurd ho (by simp)
          | @next _ o' _ mid _ a more hnext ha hmore =>
            have hmid := hshrinks ha
            rw [ho] at hnext
            obtain rfl := Option.some.inj hnext
            simp only [ha, ok_bind, (ih (by omega)).mpr hmore, pure_eq_ok]

/-- **A chain is an operand and the operators after it**, however many rounds that takes. -/
theorem chain_eq_ok_iff
    (hshrinks : ∀ {ts a rest}, operand ts = .ok (a, rest) → rest.length ≤ ts.length)
    {ts rest : List Token} {first : α} {more : List (β × α)} :
    chain operator operand ts = .ok ((first, more), rest) ↔
      ∃ mid, operand ts = .ok (first, mid) ∧ Tail operator operand mid more rest := by
  rw [chain]
  constructor
  · intro h
    obtain ⟨⟨a, mid⟩, ha, h⟩ := bind_eq_ok_iff.mp h
    obtain ⟨⟨more', rest'⟩, hmore, h⟩ := bind_eq_ok_iff.mp h
    obtain ⟨hfirst, rfl⟩ := Prod.mk.inj (Except.ok.inj h)
    obtain ⟨rfl, rfl⟩ := Prod.mk.inj hfirst
    exact ⟨mid, ha, (chainTail_eq_ok_iff hshrinks (Nat.le_refl _)).mp hmore⟩
  · rintro ⟨mid, ha, hmore⟩
    simp only [ha, ok_bind, (chainTail_eq_ok_iff hshrinks (Nat.le_refl _)).mpr hmore, pure_eq_ok]

variable {IsOperator : Token → Prop} {L : Grammar.Language} {bound : Nat}

theorem length_le_of_links (hshrinks : ∀ {ts rest}, L ts rest → rest.length ≤ ts.length)
    {ts rest : List Token} (h : Grammar.Links IsOperator L ts rest) :
    rest.length ≤ ts.length := by
  induction h with
  | stop ts => exact Nat.le_refl _
  | next _ hoperand _ ih =>
    have hmid := hshrinks hoperand
    rw [List.length_cons]
    omega

/-- What follows an operand of a chain binds no stronger than the operators of the chain. -/
theorem follow_le_of_links (hbinds : Binds IsOperator operator (bound + 1))
    {ts rest : List Token} (h : Grammar.Links IsOperator L ts rest) (hfollow : follow rest ≤ bound) :
    follow ts ≤ bound + 1 := by
  cases h with
  | stop => exact Nat.le_succ_of_le hfollow
  | next ht _ _ =>
    exact Nat.le_of_eq ((hbinds.strength_iff _).mp ht)

/-- **A chain reads operands joined by operators**, if the operators bind just as strongly as what
may follow an operand. -/
theorem Recognizes.chain (h : Reads operand L (bound + 1))
    (hbinds : Binds IsOperator operator (bound + 1)) :
    Reads (Expression.chain operator operand) (Grammar.Chain IsOperator L) bound where
  sound := by
    rintro ts ⟨first, more⟩ rest hchain
    obtain ⟨mid, hfirst, htail⟩ := (chain_eq_ok_iff h.length_le).mp hchain
    refine ⟨mid, h.sound hfirst, ?_⟩
    clear hchain hfirst
    induction htail with
    | stop => exact .stop _
    | next ho ha _ ih => exact .next (hbinds.of_eq_some ho) (h.sound ha) ih
  complete := by
    rintro _ ts rest ⟨mid, hderived, hlinks⟩ hfollow
    obtain ⟨first, hfirst⟩ :=
      h.accepts hderived (follow_le_of_links hbinds hlinks hfollow)
    -- After each operand comes an operator or what follows the chain, so its parser stops there.
    have htail : ∃ more, Tail operator operand mid more rest := by
      clear hderived hfirst
      induction hlinks with
      | stop ts =>
        exact ⟨[], .stop (hbinds.none_of_follow_le hfollow)⟩
      | @next t ts mid rest ht hoperand hlinks ih =>
        obtain ⟨a, ha⟩ :=
          h.accepts hoperand (follow_le_of_links hbinds hlinks hfollow)
        obtain ⟨o, ho⟩ := hbinds.exists_eq_some ht
        obtain ⟨more, hmore⟩ := ih hfollow
        exact ⟨(o, a) :: more, .next ho ha hmore⟩
    obtain ⟨more, htail⟩ := htail
    exact ⟨(first, more), rfl, (chain_eq_ok_iff h.length_le).mpr ⟨mid, hfirst, htail⟩⟩
  shrinks := by
    rintro _ ts rest ⟨mid, hfirst, hlinks⟩
    exact Nat.le_trans (length_le_of_links (fun hL => h.rest_le hL) hlinks)
      (h.rest_le hfirst)

end Chain

end ScreenInspector.Expression
