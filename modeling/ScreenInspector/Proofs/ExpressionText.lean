/-
  ScreenInspector/Proofs/ExpressionText.lean
  ==========================================
  **Cutting the text of an expression**, token by token.

  A text is cut into a first token and the tokens of what follows it (`Scans.cons`), whatever
  position it has and with any fuel that is enough.  A name, a literal and a number are each the
  longest run of their characters, so they are cut off as written if what follows does not prolong
  them.
-/
import ScreenInspector.Expression.Lexer
import ScreenInspector.Proofs.Outcomes
import ScreenInspector.Proofs.Tags
import ScreenInspector.Proofs.WholeNumbers

namespace ScreenInspector.Expression

/-- A text is cut into tokens, at any position and with any amount of fuel that is enough for its
length. -/
def Scans (cs : List Char) (ts : List Token) : Prop :=
  ∀ fuel position, cs.length ≤ fuel → Token.scanFrom fuel position cs = .ok ts

theorem Scans.nil : Scans [] [] := by
  intro fuel position _
  cases fuel <;> rfl

/-- A text is cut into its first token and those of the rest. -/
theorem Scans.cons {c : Char} {cs rest : List Char} {t : Token} {ts : List Token}
    (hblank : Text.isBlank c = false)
    (hnext : ∀ position, Token.next position (c :: cs) = .ok (t, rest))
    (hshorter : rest.length ≤ cs.length) (hrest : Scans rest ts) : Scans (c :: cs) (t :: ts) := by
  intro fuel position hfuel
  cases fuel with
  | zero => exact absurd hfuel (Nat.not_succ_le_zero _)
  | succ fuel =>
    have hafter : ∀ position, Token.scanFrom fuel position rest = .ok ts := by
      intro position
      apply hrest
      rw [List.length_cons] at hfuel
      omega
    rw [Token.scanFrom, hblank, if_neg (by decide), hnext]
    simp only [ok_bind, hafter, pure_eq_ok]

theorem Scans.scan {text : String} {ts : List Token} (h : Scans text.toList ts) :
    Token.scan text = .ok ts :=
  h _ 0 (Nat.le_refl _)

/-! ### Words -/

/-- The characters that stand for themselves or begin a token of two characters. -/
def signs : List Char :=
  ['/', '(', ')', '[', ']', '@', ',', '|', '*', '+', '-', '=', '!', '<', '>', ':', '.']

/-- A character of no fixed meaning begins a literal, a number or a name. -/
theorem next_eq_lexWord {c : Char} (hc : c ∉ signs) (position : Nat) (rest : List Char) :
    Token.next position (c :: rest) = lexWord position c rest := by
  simp only [signs, List.mem_cons, not_or] at hc
  unfold Token.next
  split <;> simp_all

theorem not_mem_signs {p : Char → Bool} (hsigns : signs.all fun d => !p d) {c : Char}
    (hc : p c = true) : c ∉ signs := by
  intro hmem
  have h := List.all_eq_true.mp hsigns c hmem
  rw [hc] at h
  exact absurd h (by decide)

theorem isDigit_of_isNameStart {c : Char} (h : isNameStart c = true) : c.isDigit = false := by
  by_contra hdigit
  rw [Bool.not_eq_false] at hdigit
  have hlow : c.toNat < 0x80 := by
    simp only [Char.isDigit, Bool.and_eq_true, decide_eq_true_eq, UInt32.le_iff_toNat_le] at hdigit
    exact Nat.lt_of_le_of_lt hdigit.2 (by decide)
  simp only [isNameStart, Text.isLetter, if_pos hlow, Bool.or_eq_true, beq_iff_eq] at h
  rcases h with h | rfl
  · simp only [Char.isAlpha, Char.isUpper, Char.isLower, Char.isDigit, Bool.or_eq_true,
      Bool.and_eq_true, decide_eq_true_eq, UInt32.le_iff_toNat_le] at h hdigit
    have hnine : '9'.val.toNat = 57 := by decide
    rcases h with ⟨h, -⟩ | ⟨h, -⟩
    · have hA : 'A'.val.toNat = 65 := by decide
      omega
    · have ha : 'a'.val.toNat = 97 := by decide
      omega
  · exact absurd hdigit (by decide)

theorem isBlank_of_ascii {c : Char} (hlow : 0x20 < c.toNat) (hhigh : c.toNat < 0x80) :
    Text.isBlank c = false := by
  simp only [Text.isBlank, Bool.or_eq_false_iff, Bool.and_eq_false_iff, decide_eq_false_iff_not,
    beq_eq_false_iff_ne]
  omega

theorem isBlank_of_isTagStart {c : Char} (h : isTagStart c = true) : Text.isBlank c = false := by
  apply isBlank_of_ascii _ (toNat_lt_of_isTagChar (isTagChar_of_isTagStart h))
  simp only [isTagStart, Char.isAlpha, Char.isUpper, Char.isLower, Bool.or_eq_true,
    Bool.and_eq_true, decide_eq_true_eq, UInt32.le_iff_toNat_le, beq_iff_eq] at h
  rcases h with (⟨h, -⟩ | ⟨h, -⟩) | rfl
  · exact Nat.lt_of_lt_of_le (by decide) h
  · exact Nat.lt_of_lt_of_le (by decide) h
  · decide

theorem isBlank_of_isDigit {c : Char} (h : c.isDigit = true) : Text.isBlank c = false := by
  simp only [Char.isDigit, Bool.and_eq_true, decide_eq_true_eq, UInt32.le_iff_toNat_le] at h
  apply isBlank_of_ascii
  · exact Nat.lt_of_lt_of_le (by decide) h.1
  · exact Nat.lt_of_le_of_lt h.2 (by decide)

theorem forall_mem_head? {p : Char → Bool} {d : Char} {rest : List Char} (h : p d = false) :
    ∀ c ∈ (d :: rest).head?, p c = false := by
  simp only [List.head?_cons, Option.mem_def, Option.some.injEq]
  rintro c rfl
  exact h

/-- A run of characters is the same before what does not prolong it. -/
theorem while_append {p : Char → Bool} (cs : List Char) {rest : List Char}
    (hrest : ∀ d ∈ rest.head?, p d = false) :
    (cs ++ rest).takeWhile p = cs.takeWhile p ∧
      (cs ++ rest).dropWhile p = cs.dropWhile p ++ rest := by
  induction cs with
  | nil =>
    cases rest with
    | nil => simp
    | cons d more =>
      have hd : p d = false := hrest d rfl
      simp [hd]
  | cons c cs ih =>
    by_cases hc : p c = true
    · simp [hc, ih]
    · simp [hc]

theorem run_append {p : Char → Bool} {run rest : List Char} (hrun : ∀ c ∈ run, p c = true)
    (hrest : ∀ d ∈ rest.head?, p d = false) :
    (run ++ rest).takeWhile p = run ∧ (run ++ rest).dropWhile p = rest := by
  obtain ⟨htake, hdrop⟩ := while_append run hrest
  have hall : run.takeWhile p = run := List.takeWhile_eq_self_iff.mpr hrun
  have hnone : run.dropWhile p = [] := List.dropWhile_eq_nil_iff.mpr hrun
  rw [htake, hdrop, hall, hnone, List.nil_append]
  exact ⟨rfl, rfl⟩

theorem Scans.name {name rest : List Char} {ts : List Token} (hname : IsTag name)
    (hend : ∀ d ∈ rest.head?, isNameChar d = false) (hrest : Scans rest ts) :
    Scans (name ++ rest) (.name (String.ofList name) :: ts) := by
  cases name with
  | nil => exact hname.elim
  | cons c cs =>
    obtain ⟨hstart, hmore⟩ := hname
    have hnameStart := expressionNameStart_of_isTagStart hstart
    obtain ⟨htake, hdrop⟩ := run_append (p := isNameChar)
      (fun d hd => expressionNameChar_of_isTagChar (hmore d hd)) hend
    have hsigns : c ∉ signs := not_mem_signs (by decide) hnameStart
    have hquotes : ¬ (c = '\x22' ∨ c = '\x27') := by
      rintro (rfl | rfl)
      · exact absurd hnameStart (by decide)
      · exact absurd hnameStart (by decide)
    rw [List.cons_append]
    apply Scans.cons (isBlank_of_isTagStart hstart) _ _ hrest
    · intro position
      rw [next_eq_lexWord hsigns, lexWord, if_neg hquotes, isDigit_of_isNameStart hnameStart,
        if_neg (by decide), if_pos hnameStart, htake, hdrop]
    · rw [List.length_append]
      omega

theorem Scans.literal {quote : Char} {value rest : List Char} {ts : List Token}
    (hquote : quote = '\x22' ∨ quote = '\x27') (hvalue : quote ∉ value) (hrest : Scans rest ts) :
    Scans (quote :: (value ++ quote :: rest)) (.literal (String.ofList value) :: ts) := by
  have hall : ∀ c ∈ value, (c != quote) = true := by
    intro c hc
    rw [bne_iff_ne]
    rintro rfl
    exact hvalue hc
  have hstop : ∀ d ∈ (quote :: rest).head?, (d != quote) = false := by simp
  obtain ⟨htake, hdrop⟩ := run_append hall hstop
  have hsigns : quote ∉ signs := by
    rcases hquote with rfl | rfl
    · decide
    · decide
  have hblank : Text.isBlank quote = false := by
    rcases hquote with rfl | rfl
    · decide
    · decide
  apply Scans.cons hblank _ _ hrest
  · intro position
    rw [next_eq_lexWord hsigns, lexWord, if_pos hquote, lexLiteral, hdrop, htake]
  · rw [List.length_append, List.length_cons]
    omega

/-- The digits of a whole number are cut off before anything else than a digit or a point. -/
theorem Scans.number (n : Nat) {rest : List Char} {ts : List Token}
    (hend : ∀ d ∈ rest.head?, isNumberChar d = false) (hrest : Scans rest ts) :
    Scans (Nat.toDigits 10 n ++ rest) (.number (Number.scaled n 0) :: ts) := by
  have hdigits := List.all_eq_true.mp (Number.all_isDigit_toDigits n)
  have hall : ∀ c ∈ Nat.toDigits 10 n, isNumberChar c = true := by
    intro c hc
    simp [isNumberChar, hdigits c hc]
  obtain ⟨htake, hdrop⟩ := run_append hall hend
  have hmagnitude := Number.magnitude_toDigits n
  have hne : Nat.toDigits 10 n ≠ [] := Nat.toDigits_ne_nil
  revert hdigits htake hdrop hmagnitude hne
  generalize Nat.toDigits 10 n = digits
  intro hdigits htake hdrop hmagnitude hne
  cases digits with
  | nil => exact absurd rfl hne
  | cons c cs =>
    have hc := hdigits c List.mem_cons_self
    have hsigns : c ∉ signs := not_mem_signs (p := Char.isDigit) (by decide) hc
    have hquotes : ¬ (c = '\x22' ∨ c = '\x27') := by
      rintro (rfl | rfl)
      · exact absurd hc (by decide)
      · exact absurd hc (by decide)
    rw [List.cons_append] at htake hdrop ⊢
    apply Scans.cons (isBlank_of_isDigit hc) _ _ hrest
    · intro position
      rw [next_eq_lexWord hsigns, lexWord, if_neg hquotes, if_pos hc, lexNumber, htake, hdrop,
        hmagnitude]
    · rw [List.length_append]
      omega

/-- A number in brackets, as it stands behind a group. -/
theorem Scans.place (i : Nat) : Scans ('[' :: (Nat.toDigits 10 i ++ [']']))
    [.openBracket, .number (Number.scaled i 0), .closeBracket] := by
  have hclose : Scans [']'] [.closeBracket] :=
    Scans.cons (by decide) (fun _ => rfl) (Nat.le_refl _) Scans.nil
  have hnumber := Scans.number i (forall_mem_head? (by decide)) hclose
  exact Scans.cons (by decide) (fun _ => rfl) (Nat.le_refl _) hnumber

end ScreenInspector.Expression
