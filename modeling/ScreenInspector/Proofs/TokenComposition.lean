/-
  ScreenInspector/Proofs/TokenComposition.lean
  ============================================
  **Texts of expressions can be put together and cut apart.**

  The characters of a token are that token wherever they stand, and before anything that does not
  go on with them: what followed them already, a beginning of it, nothing, or something whose first
  character prolongs no token (`MayFollow`).  A character prolongs a token if it may go on a name or
  a number, or if it is the second character of a token of two.

  So the first token of a text comes with its characters (`next_lexeme`), and a step of the scan is
  a blank or the characters of a token (`scanFrom_cases`).  By induction over the steps, a text that
  is cut into tokens is cut into them again before what prolongs no token, with the tokens of what
  follows after them (`Scans.append`); and it can be cut itself between any two of its tokens
  (`Scans.split`).  A closing parenthesis prolongs no token, so a text keeps its tokens in
  parentheses (`Scans.group`).
-/
import ScreenInspector.Proofs.ExpressionText

namespace ScreenInspector.Expression

/-- A character that prolongs no token. -/
def EndsToken (d : Char) : Prop :=
  isNameChar d = false ∧ isNumberChar d = false ∧ d ≠ '/' ∧ d ≠ '=' ∧ d ≠ ':'

instance (d : Char) : Decidable (EndsToken d) :=
  inferInstanceAs (Decidable (_ ∧ _ ∧ _ ∧ _ ∧ _))

theorem endsToken_closeParen : EndsToken ')' := by
  decide

/-- What may stand behind a token that `after` stood behind: nothing, or something that begins as
`after` does or with a character that prolongs no token. -/
def MayFollow (after rest : List Char) : Prop :=
  ∀ d ∈ rest.head?, EndsToken d ∨ after.head? = some d

namespace MayFollow

variable {after rest : List Char}

theorem of_isPrefix (h : rest <+: after) : MayFollow after rest := by
  obtain ⟨more, rfl⟩ := h
  intro d hd
  right
  cases rest with
  | nil => cases hd
  | cons c rest => exact hd

theorem append (hrest : ∀ d ∈ rest.head?, EndsToken d) : MayFollow after (after ++ rest) := by
  intro d hd
  cases after with
  | nil => exact Or.inl (hrest d hd)
  | cons c after => exact Or.inr hd

/-- Where a run of characters ended, it ends again. -/
theorem head?_eq_false {p : Char → Bool} {cs : List Char} (h : MayFollow (cs.dropWhile p) rest)
    (hends : ∀ d, EndsToken d → p d = false) : ∀ d ∈ rest.head?, p d = false := by
  intro d hd
  rcases h d hd with hd | hd
  · exact hends d hd
  · have hhead := List.head?_dropWhile_not p cs
    rw [hd] at hhead
    simpa using hhead

/-- Where a token did not go on with a character, it does not again. -/
theorem ne_cons {x : Char} (h : MayFollow after rest) (hx : ¬ EndsToken x)
    (hafter : ∀ more, after = x :: more → False) : ∀ more, rest = x :: more → False := by
  rintro more rfl
  rcases h x rfl with hd | hd
  · exact hx hd
  · obtain ⟨last, hlast⟩ := List.head?_eq_some_iff.mp hd
    exact hafter last hlast

end MayFollow

/-! ### The first token -/

theorem lexNumber_lexeme {c : Char} (hc : isNumberChar c = true) {cs after : List Char} {t : Token}
    (h : lexNumber (c :: cs) = .ok (t, after)) :
    after = cs.dropWhile isNumberChar ∧ ∀ rest, MayFollow after rest →
      lexNumber (c :: (cs.takeWhile isNumberChar ++ rest)) = .ok (t, rest) := by
  rw [lexNumber, List.takeWhile_cons_of_pos hc, List.dropWhile_cons_of_pos hc] at h
  cases hmagnitude : Number.magnitude? (c :: cs.takeWhile isNumberChar) with
  | none => simp [hmagnitude] at h
  | some value =>
    simp only [hmagnitude, Except.ok.injEq, Prod.mk.injEq] at h
    obtain ⟨rfl, rfl⟩ := h
    refine ⟨rfl, ?_⟩
    intro rest hrest
    obtain ⟨htake, hdrop⟩ := run_append (p := isNumberChar)
      (fun d hd => List.mem_takeWhile_imp hd) (hrest.head?_eq_false fun d hd => hd.2.1)
    rw [lexNumber, List.takeWhile_cons_of_pos hc, List.dropWhile_cons_of_pos hc, htake, hdrop,
      hmagnitude]

theorem lexLiteral_lexeme {quote : Char} {position : Nat} {cs after : List Char} {t : Token}
    (h : lexLiteral quote position cs = .ok (t, after)) :
    ∃ lexeme, cs = lexeme ++ after ∧
      ∀ position' rest, lexLiteral quote position' (lexeme ++ rest) = .ok (t, rest) := by
  rw [lexLiteral] at h
  cases hdrop : cs.dropWhile (· != quote) with
  | nil => simp [hdrop] at h
  | cons d more =>
    simp only [hdrop, Except.ok.injEq, Prod.mk.injEq] at h
    obtain ⟨rfl, rfl⟩ := h
    have hd : (d != quote) = false := by
      have hhead := List.head?_dropWhile_not (· != quote) cs
      rwa [hdrop] at hhead
    refine ⟨cs.takeWhile (· != quote) ++ [d], ?_, ?_⟩
    · rw [List.append_assoc, List.singleton_append, ← hdrop, List.takeWhile_append_dropWhile]
    · intro position' rest
      obtain ⟨htake, hdrop'⟩ := run_append (p := (· != quote))
        (fun e he => List.mem_takeWhile_imp (p := (· != quote)) he) (forall_mem_head? hd)
      rw [List.append_assoc, List.singleton_append, lexLiteral, hdrop', htake]

theorem lexWord_lexeme {position : Nat} {c : Char} {cs after : List Char} {t : Token}
    (h : lexWord position c cs = .ok (t, after)) :
    ∃ lexeme, cs = lexeme ++ after ∧ ∀ position' rest, MayFollow after rest →
      lexWord position' c (lexeme ++ rest) = .ok (t, rest) := by
  rw [lexWord] at h
  by_cases hquote : c = '\x22' ∨ c = '\x27'
  · rw [if_pos hquote] at h
    obtain ⟨lexeme, hcs, hsame⟩ := lexLiteral_lexeme h
    refine ⟨lexeme, hcs, ?_⟩
    intro position' rest _
    rw [lexWord, if_pos hquote, hsame]
  rw [if_neg hquote] at h
  by_cases hdigit : c.isDigit = true
  · rw [if_pos hdigit] at h
    obtain ⟨rfl, hsame⟩ := lexNumber_lexeme (by simp [isNumberChar, hdigit]) h
    refine ⟨_, List.takeWhile_append_dropWhile.symm, ?_⟩
    intro position' rest hrest
    rw [lexWord, if_neg hquote, if_pos hdigit, hsame rest hrest]
  rw [if_neg hdigit] at h
  by_cases hname : isNameStart c = true
  · rw [if_pos hname] at h
    obtain ⟨rfl, rfl⟩ := Prod.mk.inj (Except.ok.inj h)
    refine ⟨_, List.takeWhile_append_dropWhile.symm, ?_⟩
    intro position' rest hrest
    obtain ⟨htake, hdrop⟩ := run_append (p := isNameChar)
      (fun d hd => List.mem_takeWhile_imp hd) (hrest.head?_eq_false fun d hd => hd.1)
    rw [lexWord, if_neg hquote, if_neg hdigit, if_pos hname, htake, hdrop]
  · rw [if_neg hname] at h
    cases h

theorem not_mem_signs_of_lexWord {position : Nat} {c : Char} {cs after : List Char} {t : Token}
    (h : lexWord position c cs = .ok (t, after)) : c ∉ signs := by
  rw [lexWord] at h
  split at h
  next hquote =>
    rcases hquote with rfl | rfl
    · decide
    · decide
  next =>
    split at h
    next hdigit => exact not_mem_signs (p := Char.isDigit) (by decide) hdigit
    next =>
      split at h
      next hname => exact not_mem_signs (p := isNameStart) (by decide) hname
      next => cases h

/-- The characters of a token: at least one, and the token anywhere and before anything that may
stand behind it. -/
def IsLexeme (lexeme : List Char) (t : Token) (after : List Char) : Prop :=
  lexeme ≠ [] ∧ ∀ position rest, MayFollow after rest →
    Token.next position (lexeme ++ rest) = .ok (t, rest)

theorem next_word_lexeme {position : Nat} {c : Char} {cs after : List Char} {t : Token}
    (h : lexWord position c cs = .ok (t, after)) :
    ∃ lexeme, c :: cs = lexeme ++ after ∧ IsLexeme lexeme t after := by
  have hsigns := not_mem_signs_of_lexWord h
  obtain ⟨lexeme, rfl, hsame⟩ := lexWord_lexeme h
  refine ⟨c :: lexeme, rfl, List.cons_ne_nil _ _, ?_⟩
  intro position' rest hrest
  rw [List.cons_append, next_eq_lexWord hsigns]
  exact hsame position' rest hrest

/-- A single character that could be the first of a token of two. -/
theorem isLexeme_singleton {x y : Char} {t : Token} {after : List Char} (hy : ¬ EndsToken y)
    (hafter : ∀ more, after = y :: more → False)
    (hnext : ∀ position rest, (∀ more, rest = y :: more → False) →
      Token.next position (x :: rest) = .ok (t, rest)) : IsLexeme [x] t after := by
  refine ⟨List.cons_ne_nil _ _, ?_⟩
  intro position rest hrest
  exact hnext position rest (hrest.ne_cons hy hafter)

/-- **The first token of a text** comes with its characters. -/
theorem next_lexeme {position : Nat} {cs after : List Char} {t : Token}
    (h : Token.next position cs = .ok (t, after)) :
    ∃ lexeme, cs = lexeme ++ after ∧ IsLexeme lexeme t after := by
  unfold Token.next at h
  split at h
  -- Most tokens are told by their characters alone, and faults give nothing.
  all_goals try (cases h; done)
  all_goals try (obtain ⟨rfl, rfl⟩ := Prod.mk.inj (Except.ok.inj h)
                 exact ⟨[_], rfl, List.cons_ne_nil _ _, fun _ _ _ => rfl⟩)
  all_goals try (obtain ⟨rfl, rfl⟩ := Prod.mk.inj (Except.ok.inj h)
                 exact ⟨[_, _], rfl, List.cons_ne_nil _ _, fun _ _ _ => rfl⟩)
  -- The others are those that a second character could change.
  next _ cs hcs =>
    obtain ⟨rfl, rfl⟩ := Prod.mk.inj (Except.ok.inj h)
    refine ⟨['/'], rfl, isLexeme_singleton (y := '/') (by decide) hcs ?_⟩
    intro position' rest hrest
    rw [Token.next]
    exact hrest
  next _ cs hcs =>
    obtain ⟨rfl, rfl⟩ := Prod.mk.inj (Except.ok.inj h)
    refine ⟨['<'], rfl, isLexeme_singleton (y := '=') (by decide) hcs ?_⟩
    intro position' rest hrest
    rw [Token.next]
    exact hrest
  next _ cs hcs =>
    obtain ⟨rfl, rfl⟩ := Prod.mk.inj (Except.ok.inj h)
    refine ⟨['>'], rfl, isLexeme_singleton (y := '=') (by decide) hcs ?_⟩
    intro position' rest hrest
    rw [Token.next]
    exact hrest
  next _ c cs hdot =>
    split at h
    next hdigit =>
      have hc : isNumberChar c = true := by simp [isNumberChar, hdigit]
      obtain ⟨rfl, hsame⟩ := lexNumber_lexeme (by decide) h
      refine ⟨'.' :: (c :: cs).takeWhile isNumberChar, ?_, List.cons_ne_nil _ _, ?_⟩
      · rw [List.cons_append, List.takeWhile_append_dropWhile]
      · intro position' rest hrest
        have hnumber := hsame rest hrest
        rw [List.takeWhile_cons_of_pos hc, List.cons_append] at hnumber
        rw [List.takeWhile_cons_of_pos hc, List.cons_append, List.cons_append, Token.next,
          if_pos hdigit, hnumber]
        exact hdot
    next hdigit =>
      obtain ⟨rfl, rfl⟩ := Prod.mk.inj (Except.ok.inj h)
      refine ⟨['.'], rfl, List.cons_ne_nil _ _, ?_⟩
      intro position' rest hrest
      cases rest with
      | nil => rfl
      | cons d more =>
        have hd : d ≠ '.' ∧ ¬ d.isDigit = true := by
          rcases hrest d rfl with hends | heq
          · have hnumber := hends.2.1
            simp only [isNumberChar, Bool.or_eq_false_iff, beq_eq_false_iff_ne] at hnumber
            exact ⟨hnumber.2, by simp [hnumber.1]⟩
          · obtain rfl := Option.some.inj heq
            exact ⟨hdot, hdigit⟩
        rw [List.singleton_append, Token.next, if_neg hd.2]
        exact hd.1
  next =>
    obtain ⟨rfl, rfl⟩ := Prod.mk.inj (Except.ok.inj h)
    refine ⟨['.'], rfl, List.cons_ne_nil _ _, ?_⟩
    intro position' rest hrest
    cases rest with
    | nil => rfl
    | cons d more =>
      have hnumber := ((hrest d rfl).resolve_right (by simp)).2.1
      simp only [isNumberChar, Bool.or_eq_false_iff, beq_eq_false_iff_ne] at hnumber
      rw [List.singleton_append, Token.next, if_neg (by simp [hnumber.1])]
      exact hnumber.2
  next => exact next_word_lexeme h

/-! ### Steps of the scan -/

theorem Scans.blank {c : Char} {cs : List Char} {ts : List Token} (hblank : Text.isBlank c = true)
    (hrest : Scans cs ts) : Scans (c :: cs) ts := by
  intro fuel position hfuel
  cases fuel with
  | zero => exact absurd hfuel (Nat.not_succ_le_zero _)
  | succ fuel =>
    rw [Token.scanFrom, if_pos hblank]
    exact hrest fuel _ (Nat.le_of_succ_le_succ hfuel)

/-- The characters of a token are cut off before what may stand behind it. -/
theorem Scans.lexeme {c : Char} {cs after rest : List Char} {t : Token} {ts : List Token}
    (hblank : Text.isBlank c = false) (hlexeme : IsLexeme (c :: cs) t after)
    (hfollow : MayFollow after rest) (hrest : Scans rest ts) :
    Scans (c :: (cs ++ rest)) (t :: ts) := by
  apply Scans.cons hblank _ _ hrest
  · exact fun position => hlexeme.2 position rest hfollow
  · rw [List.length_append]
    omega

/-- **A step of the scan** is a blank or the characters of a token. -/
theorem scanFrom_cases {fuel position : Nat} {c : Char} {cs : List Char} {ts : List Token}
    (h : Token.scanFrom (fuel + 1) position (c :: cs) = .ok ts) :
    (Text.isBlank c = true ∧ Token.scanFrom fuel (position + 1) cs = .ok ts) ∨
    (Text.isBlank c = false ∧ ∃ lexeme after t more position', cs = lexeme ++ after ∧
      IsLexeme (c :: lexeme) t after ∧ ts = t :: more ∧
      Token.scanFrom fuel position' after = .ok more) := by
  rw [Token.scanFrom] at h
  by_cases hblank : Text.isBlank c = true
  · rw [if_pos hblank] at h
    exact Or.inl ⟨hblank, h⟩
  · rw [if_neg hblank] at h
    obtain ⟨⟨t, after⟩, hnext, h⟩ := bind_eq_ok_iff.mp h
    obtain ⟨more, hmore, hts⟩ := bind_eq_ok_iff.mp h
    obtain ⟨lexeme, hcs, hlexeme⟩ := next_lexeme hnext
    obtain ⟨d, lexeme, rfl⟩ := List.exists_cons_of_ne_nil hlexeme.1
    obtain ⟨rfl, rfl⟩ := List.cons.inj hcs
    exact Or.inr ⟨Bool.eq_false_of_not_eq_true hblank, lexeme, after, t, more, _, rfl, hlexeme,
      (Except.ok.inj hts).symm, hmore⟩

/-! ### Texts -/

theorem scans_append_of_scanFrom {fuel position : Nat} {cs rest : List Char}
    {ts ts' : List Token} (h : Token.scanFrom fuel position cs = .ok ts) (hfuel : cs.length ≤ fuel)
    (hend : ∀ d ∈ rest.head?, EndsToken d) (hrest : Scans rest ts') :
    Scans (cs ++ rest) (ts ++ ts') := by
  induction fuel generalizing position cs ts with
  | zero =>
    obtain rfl := List.eq_nil_of_length_eq_zero (Nat.le_zero.mp hfuel)
    obtain rfl := Except.ok.inj h
    exact hrest
  | succ fuel ih =>
    cases cs with
    | nil =>
      obtain rfl := Except.ok.inj h
      exact hrest
    | cons c cs =>
      rw [List.length_cons] at hfuel
      rcases scanFrom_cases h with
        ⟨hblank, hmore⟩ | ⟨hblank, lexeme, after, t, more, position', rfl, hlexeme, rfl, hmore⟩
      · exact Scans.blank hblank (ih hmore (by omega))
      · rw [List.length_append] at hfuel
        have hafter := ih hmore (by omega)
        rw [List.cons_append, List.append_assoc]
        exact Scans.lexeme hblank hlexeme (MayFollow.append hend) hafter

theorem scans_of_scanFrom {fuel position : Nat} {cs : List Char} {ts : List Token}
    (h : Token.scanFrom fuel position cs = .ok ts) (hfuel : cs.length ≤ fuel) : Scans cs ts := by
  have happend := scans_append_of_scanFrom h hfuel (by simp) Scans.nil
  rwa [List.append_nil, List.append_nil] at happend

theorem scans_split_of_scanFrom {fuel position : Nat} {cs : List Char} {ts ts' : List Token}
    (h : Token.scanFrom fuel position cs = .ok (ts ++ ts')) (hfuel : cs.length ≤ fuel) :
    ∃ as bs, cs = as ++ bs ∧ Scans as ts ∧ Scans bs ts' := by
  induction fuel generalizing position cs ts with
  | zero =>
    obtain rfl := List.eq_nil_of_length_eq_zero (Nat.le_zero.mp hfuel)
    obtain ⟨rfl, rfl⟩ := List.append_eq_nil_iff.mp (Except.ok.inj h).symm
    exact ⟨[], [], rfl, Scans.nil, Scans.nil⟩
  | succ fuel ih =>
    cases ts with
    | nil => exact ⟨[], cs, rfl, Scans.nil, scans_of_scanFrom h hfuel⟩
    | cons t ts =>
      cases cs with
      | nil => cases h
      | cons c cs =>
        rw [List.length_cons] at hfuel
        rcases scanFrom_cases h with
          ⟨hblank, hmore⟩ | ⟨hblank, lexeme, after, t', more, position', rfl, hlexeme, hts, hmore⟩
        · obtain ⟨as, bs, rfl, has, hbs⟩ := ih hmore (by omega)
          exact ⟨c :: as, bs, rfl, Scans.blank hblank has, hbs⟩
        · obtain ⟨rfl, rfl⟩ := List.cons.inj hts
          rw [List.length_append] at hfuel
          obtain ⟨as, bs, rfl, has, hbs⟩ := ih hmore (by omega)
          refine ⟨c :: (lexeme ++ as), bs, by simp, ?_, hbs⟩
          exact Scans.lexeme hblank hlexeme (MayFollow.of_isPrefix (List.prefix_append as bs)) has

section Text

variable {text : String} {rest : List Char} {ts ts' : List Token}

/-- **A text that was cut into tokens is cut into them again** before anything that does not prolong
the last one. -/
theorem Scans.append (h : Token.scan text = .ok ts) (hend : ∀ d ∈ rest.head?, EndsToken d)
    (hrest : Scans rest ts') : Scans (text.toList ++ rest) (ts ++ ts') :=
  scans_append_of_scanFrom h (Nat.le_refl _) hend hrest

theorem scans_of_scan (h : Token.scan text = .ok ts) : Scans text.toList ts :=
  scans_of_scanFrom h (Nat.le_refl _)

/-- **A text can be cut between any two of its tokens.** -/
theorem Scans.split (h : Token.scan text = .ok (ts ++ ts')) :
    ∃ as bs, text.toList = as ++ bs ∧ Scans as ts ∧ Scans bs ts' :=
  scans_split_of_scanFrom h (Nat.le_refl _)

/-- A text in parentheses has its own tokens between those of the group. -/
theorem Scans.group (h : Token.scan text = .ok ts) (hrest : Scans rest ts') :
    Scans ('(' :: (text.toList ++ ')' :: rest)) (.openParen :: (ts ++ .closeParen :: ts')) := by
  have hclose : Scans (')' :: rest) (.closeParen :: ts') :=
    Scans.cons (by decide) (fun _ => rfl) (Nat.le_refl _) hrest
  have hinside := Scans.append h (by rintro d ⟨⟩; exact endsToken_closeParen) hclose
  exact Scans.cons (by decide) (fun _ => rfl) (Nat.le_refl _) hinside

end Text

end ScreenInspector.Expression
