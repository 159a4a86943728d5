/-
  ScreenInspector/Proofs/LegalTexts.lean
  ======================================
  **A text that is read as a document holds legal characters only.**

  Legality is checked where values, texts, comments and instructions are passed over (`upTo`).  All
  other characters that a scanner accepts are spaces, characters of names or a few marks, and these
  are legal anyway.  So each scanner carries legality back over what it has taken: if what is left
  of a text holds legal characters only, then so does the text.  The empty text, where scanning
  ends, has none.
-/
import ScreenInspector.Markup.Tree
import ScreenInspector.Proofs.Outcomes
import Mathlib

namespace ScreenInspector.Markup

/-- All characters are legal. -/
def IsLegalText (cs : List Char) : Prop := ∀ c ∈ cs, isLegal c = true

theorem isLegalText_nil : IsLegalText [] := by
  intro c hc
  cases hc

instance (cs : List Char) : Decidable (IsLegalText cs) :=
  decidable_of_iff (cs.all isLegal = true) List.all_eq_true

theorem IsLegalText.append {ds : List Char} (cs : List Char) (hcs : IsLegalText cs)
    (hds : IsLegalText ds) : IsLegalText (cs ++ ds) :=
  List.forall_mem_append.mpr ⟨hcs, hds⟩

theorem IsLegalText.cons {c : Char} {cs : List Char} (hc : isLegal c = true)
    (h : IsLegalText cs) : IsLegalText (c :: cs) :=
  List.forall_mem_cons.mpr ⟨hc, h⟩

/-! ### Characters -/

theorem isLegal_of_toNat {c : Char} (hlow : 0x20 ≤ c.toNat)
    (hhigh : c.toNat ≠ 0xFFFE ∧ c.toNat ≠ 0xFFFF) : isLegal c = true := by
  rw [isLegal, if_neg (Nat.not_lt_of_le hlow)]
  simpa using hhigh

theorem isLegal_of_isSpace {c : Char} (h : isSpace c = true) : isLegal c = true := by
  simp only [isSpace, Bool.or_eq_true, beq_iff_eq] at h
  rcases h with ((rfl | rfl) | rfl) | rfl <;> rfl

theorem isLegal_of_isAlphanum {c : Char} (h : c.isAlphanum = true) : isLegal c = true := by
  simp only [Char.isAlphanum, Char.isAlpha, Char.isUpper, Char.isLower, Char.isDigit,
    Bool.or_eq_true, Bool.and_eq_true, decide_eq_true_eq, UInt32.le_iff_toNat_le, ge_iff_le] at h
  have hcode : c.toNat = c.val.toNat := rfl
  rcases h with (⟨hlow, hhigh⟩ | ⟨hlow, hhigh⟩) | ⟨hlow, hhigh⟩
  · have hA : 'A'.val.toNat = 65 := rfl
    have hZ : 'Z'.val.toNat = 90 := rfl
    exact isLegal_of_toNat (by omega) (by omega)
  · have ha : 'a'.val.toNat = 97 := rfl
    have hz : 'z'.val.toNat = 122 := rfl
    exact isLegal_of_toNat (by omega) (by omega)
  · have h0 : '0'.val.toNat = 48 := rfl
    have h9 : '9'.val.toNat = 57 := rfl
    exact isLegal_of_toNat (by omega) (by omega)

theorem isLegal_of_isNameStart {c : Char} (h : isNameStart c = true) : isLegal c = true := by
  simp only [isNameStart] at h
  split at h
  · simp only [Bool.or_eq_true, beq_iff_eq] at h
    rcases h with halpha | rfl
    · exact isLegal_of_isAlphanum (by simp [Char.isAlphanum, halpha])
    · rfl
  · simp only [within, Bool.or_eq_true, Bool.and_eq_true, decide_eq_true_eq] at h
    exact isLegal_of_toNat (by omega) (by omega)

theorem isLegal_of_isNameChar {c : Char} (h : isNameChar c = true) : isLegal c = true := by
  simp only [isNameChar] at h
  split at h
  · simp only [Bool.or_eq_true, beq_iff_eq] at h
    rcases h with ((halphanum | rfl) | rfl) | rfl
    · exact isLegal_of_isAlphanum halphanum
    · rfl
    · rfl
    · rfl
  · simp only [within, Bool.or_eq_true, Bool.and_eq_true, decide_eq_true_eq, beq_iff_eq] at h
    rcases h with ((h | h) | h) | h
    · exact isLegal_of_isNameStart h
    · exact isLegal_of_toNat (by omega) (by omega)
    · exact isLegal_of_toNat (by omega) (by omega)
    · exact isLegal_of_toNat (by omega) (by omega)

/-! ### Parts of a text -/

theorem isLegalText_of_dropWhile {p : Char → Bool} (hp : ∀ c, p c = true → isLegal c = true)
    {cs : List Char} (h : IsLegalText (cs.dropWhile p)) : IsLegalText cs := by
  induction cs with
  | nil => exact h
  | cons c rest ih =>
    by_cases hc : p c = true
    · rw [List.dropWhile_cons_of_pos hc] at h
      exact (ih h).cons (hp c hc)
    · rwa [List.dropWhile_cons_of_neg hc] at h

theorem isLegalText_of_skipSpace {cs : List Char} (h : IsLegalText (skipSpace cs)) :
    IsLegalText cs :=
  isLegalText_of_dropWhile (fun _ => isLegal_of_isSpace) h

theorem isLegalText_of_expectChars {expected cs rest : List Char}
    (h : expectChars expected cs = .ok rest) (hexpected : IsLegalText expected)
    (hrest : IsLegalText rest) : IsLegalText cs := by
  induction expected generalizing cs with
  | nil =>
    obtain rfl : cs = rest := Except.ok.inj h
    exact hrest
  | cons e es ih =>
    obtain ⟨he, hes⟩ := List.forall_mem_cons.mp hexpected
    cases cs with
    | nil => cases h
    | cons c more =>
      rw [expectChars] at h
      split at h
      next heq =>
        subst heq
        exact (ih h hes).cons he
      · cases h

theorem isLegalText_of_upTo {stop : List Char → Bool} {cs taken rest : List Char}
    (h : upTo stop cs = .ok (taken, rest)) (hrest : IsLegalText rest) : IsLegalText cs := by
  induction cs generalizing taken with
  | nil => exact isLegalText_nil
  | cons c more ih =>
    rw [upTo] at h
    by_cases hc : isLegal c = true
    · simp only [hc, Bool.not_true, Bool.false_eq_true, if_false] at h
      split at h
      · obtain ⟨-, rfl⟩ := Prod.mk.inj (Except.ok.inj h)
        exact hrest
      · obtain ⟨⟨taken', after⟩, hmore, heq⟩ := bind_eq_ok_iff.mp h
        obtain ⟨-, rfl⟩ := Prod.mk.inj (Except.ok.inj heq)
        exact (ih hmore).cons hc
    · simp [hc] at h

theorem isLegalText_of_qname {cs rest : List Char} {name : QName}
    (h : qname cs = .ok (name, rest)) (hrest : IsLegalText rest) : IsLegalText cs := by
  apply isLegalText_of_dropWhile (p := isNameChar) fun _ => isLegal_of_isNameChar
  simp only [qname] at h
  split at h
  next more hmore =>
    split at h
    · obtain ⟨-, rfl⟩ := Prod.mk.inj (Except.ok.inj h)
      rw [hmore]
      exact (isLegalText_of_dropWhile (fun _ => isLegal_of_isNameChar) hrest).cons rfl
    · cases h
  next =>
    split at h
    · obtain ⟨-, rfl⟩ := Prod.mk.inj (Except.ok.inj h)
      exact hrest
    · cases h

/-! ### Tags -/

theorem isLegalText_of_readAttribute {cs rest : List Char} {a : QName × List Char}
    (h : readAttribute cs = .ok (a, rest)) (hrest : IsLegalText rest) : IsLegalText cs := by
  obtain ⟨⟨name, afterName⟩, hname, h⟩ := bind_eq_ok_iff.mp h
  obtain ⟨afterSign, hsign, h⟩ := bind_eq_ok_iff.mp h
  apply isLegalText_of_qname hname
  apply isLegalText_of_skipSpace
  apply isLegalText_of_expectChars hsign (by decide)
  apply isLegalText_of_skipSpace
  cases hskip : skipSpace afterSign with
  | nil => exact isLegalText_nil
  | cons quote more =>
    simp only [hskip] at h
    split at h
    next hquote =>
      have hlegal : isLegal quote = true := by
        rcases hquote with rfl | rfl <;> rfl
      obtain ⟨⟨value, afterValue⟩, hvalue, h⟩ := bind_eq_ok_iff.mp h
      obtain ⟨afterQuote, hend, h⟩ := bind_eq_ok_iff.mp h
      obtain ⟨-, rfl⟩ := Prod.mk.inj (Except.ok.inj h)
      have hafter := isLegalText_of_expectChars hend (isLegalText_nil.cons hlegal) hrest
      exact (isLegalText_of_upTo hvalue hafter).cons hlegal
    · cases h

theorem isLegalText_of_readAttributes {fuel : Nat} {cs rest : List Char}
    {result : List (QName × List Char) × Bool} (h : readAttributes fuel cs = .ok (result, rest))
    (hrest : IsLegalText rest) : IsLegalText cs := by
  induction fuel generalizing cs result with
  | zero => cases h
  | succ fuel ih =>
    apply isLegalText_of_skipSpace
    rw [readAttributes] at h
    split at h
    · cases h
    next more hskip =>
      obtain ⟨after, hend, heq⟩ := map_eq_ok_iff.mp h
      obtain ⟨-, rfl⟩ := Prod.mk.inj heq
      rw [hskip]
      exact (isLegalText_of_expectChars hend (by decide) hrest).cons rfl
    next more hskip =>
      obtain ⟨-, rfl⟩ := Prod.mk.inj (Except.ok.inj h)
      rw [hskip]
      exact hrest.cons rfl
    next =>
      split at h
      · cases h
      · obtain ⟨⟨a, afterOne⟩, hone, h⟩ := bind_eq_ok_iff.mp h
        obtain ⟨⟨⟨more, closed⟩, afterAll⟩, hmore, h⟩ := bind_eq_ok_iff.mp h
        obtain ⟨-, rfl⟩ := Prod.mk.inj (Except.ok.inj h)
        exact isLegalText_of_readAttribute hone (ih hmore)

theorem isLegalText_of_readStartTag {fuel : Nat} {cs rest : List Char} {t : Token}
    (h : readStartTag fuel cs = .ok (t, rest)) (hrest : IsLegalText rest) : IsLegalText cs := by
  obtain ⟨⟨name, afterName⟩, hname, h⟩ := bind_eq_ok_iff.mp h
  obtain ⟨⟨⟨attributes, closed⟩, afterAll⟩, hattributes, h⟩ := bind_eq_ok_iff.mp h
  obtain ⟨-, rfl⟩ := Prod.mk.inj (Except.ok.inj h)
  exact isLegalText_of_qname hname (isLegalText_of_readAttributes hattributes hrest)

theorem isLegalText_of_readEndTag {cs rest : List Char} {t : Token}
    (h : readEndTag cs = .ok (t, rest)) (hrest : IsLegalText rest) : IsLegalText cs := by
  obtain ⟨⟨name, afterName⟩, hname, h⟩ := bind_eq_ok_iff.mp h
  obtain ⟨afterEnd, hend, h⟩ := bind_eq_ok_iff.mp h
  obtain ⟨-, rfl⟩ := Prod.mk.inj (Except.ok.inj h)
  have hafter := isLegalText_of_expectChars hend (by decide) hrest
  exact isLegalText_of_qname hname (isLegalText_of_skipSpace hafter)

/-! ### Comments, sections, instructions and texts -/

theorem isLegalText_of_readComment {cs rest : List Char} {t : Token}
    (h : readComment cs = .ok (t, rest)) (hrest : IsLegalText rest) : IsLegalText cs := by
  obtain ⟨⟨content, left⟩, hcontent, h⟩ := bind_eq_ok_iff.mp h
  obtain ⟨afterEnd, hend, h⟩ := bind_eq_ok_iff.mp h
  split at h
  · cases h
  · obtain ⟨-, rfl⟩ := Prod.mk.inj (Except.ok.inj h)
    exact isLegalText_of_upTo hcontent (isLegalText_of_expectChars hend (by decide) hrest)

theorem isLegalText_of_readRawText {cs rest : List Char} {t : Token}
    (h : readRawText cs = .ok (t, rest)) (hrest : IsLegalText rest) : IsLegalText cs := by
  obtain ⟨⟨content, left⟩, hcontent, h⟩ := bind_eq_ok_iff.mp h
  obtain ⟨afterEnd, hend, h⟩ := bind_eq_ok_iff.mp h
  obtain ⟨-, rfl⟩ := Prod.mk.inj (Except.ok.inj h)
  exact isLegalText_of_upTo hcontent (isLegalText_of_expectChars hend (by decide) hrest)

theorem isLegalText_of_readInstruction {cs rest : List Char} {t : Token}
    (h : readInstruction cs = .ok (t, rest)) (hrest : IsLegalText rest) : IsLegalText cs := by
  simp only [readInstruction] at h
  split at h
  · cases h
  · split at h
    · cases h
    · split at h
      · cases h
      · obtain ⟨⟨content, left⟩, hcontent, h⟩ := bind_eq_ok_iff.mp h
        obtain ⟨afterEnd, hend, h⟩ := bind_eq_ok_iff.mp h
        obtain ⟨-, rfl⟩ := Prod.mk.inj (Except.ok.inj h)
        have hafter := isLegalText_of_expectChars hend (by decide) hrest
        have hspace := isLegalText_of_skipSpace (isLegalText_of_upTo hcontent hafter)
        refine isLegalText_of_dropWhile ?_ hspace
        intro c hc
        rcases Bool.or_eq_true_iff.mp hc with hname | hcolon
        · exact isLegal_of_isNameChar hname
        · obtain rfl := eq_of_beq hcolon
          rfl

theorem isLegalText_of_readText {cs rest : List Char} {t : Token}
    (h : readText cs = .ok (t, rest)) (hrest : IsLegalText rest) : IsLegalText cs := by
  obtain ⟨⟨raw, left⟩, hraw, h⟩ := bind_eq_ok_iff.mp h
  dsimp only at h
  split at h
  · cases h
  · obtain ⟨-, rfl⟩ := Prod.mk.inj (Except.ok.inj h)
    exact isLegalText_of_upTo hraw hrest

/-! ### Whole texts -/

/-- **What the next token takes is legal.** -/
theorem isLegalText_of_next {fuel : Nat} {cs rest : List Char} {t : Token}
    (h : Token.next fuel cs = .ok (t, rest)) (hrest : IsLegalText rest) : IsLegalText cs := by
  rw [Token.next.eq_def] at h
  split at h
  next more =>
    exact IsLegalText.append ['<', '!', '-', '-'] (by decide)
      (isLegalText_of_readComment h hrest)
  next more =>
    exact IsLegalText.append ['<', '!', '[', 'C', 'D', 'A', 'T', 'A', '['] (by decide)
      (isLegalText_of_readRawText h hrest)
  next more =>
    exact IsLegalText.append ['<', '?'] (by decide) (isLegalText_of_readInstruction h hrest)
  next more =>
    exact IsLegalText.append ['<', '/'] (by decide) (isLegalText_of_readEndTag h hrest)
  next more => exact (isLegalText_of_readStartTag h hrest).cons rfl
  next => exact isLegalText_of_readText h hrest

/-- **A text that is cut into tokens holds legal characters only.** -/
theorem isLegalText_of_scanFrom {fuel : Nat} {cs : List Char} {ts : List Token}
    (h : Token.scanFrom fuel cs = .ok ts) : IsLegalText cs := by
  induction fuel generalizing cs ts with
  | zero =>
    cases cs with
    | nil => exact isLegalText_nil
    | cons c more => cases h
  | succ fuel ih =>
    cases cs with
    | nil => exact isLegalText_nil
    | cons c more =>
      rw [Token.scanFrom] at h
      · obtain ⟨⟨t, rest⟩, hnext, h⟩ := bind_eq_ok_iff.mp h
        obtain ⟨ts', hrest, -⟩ := bind_eq_ok_iff.mp h
        exact isLegalText_of_next hnext (ih hrest)
      · simp

/-! ### The declaration -/

theorem isLegalText_of_declarationGap {cs rest : List Char} (h : declarationGap cs = .ok rest)
    (hrest : IsLegalText rest) : IsLegalText cs := by
  rw [declarationGap.eq_def] at h
  split at h
  · exact isLegalText_nil
  · split at h
    · obtain rfl := Except.ok.inj h
      exact isLegalText_of_skipSpace hrest
    · split at h
      · obtain rfl := Except.ok.inj h
        exact hrest
      · cases h

theorem isLegalText_of_declarationPart {name cs rest : List Char}
    (h : declarationPart name cs = .ok rest) (hrest : IsLegalText rest) : IsLegalText cs := by
  rw [declarationPart] at h
  split at h
  · obtain ⟨⟨a, after⟩, ha, h⟩ := bind_eq_ok_iff.mp h
    obtain rfl := Except.ok.inj h
    exact isLegalText_of_readAttribute ha hrest
  · obtain rfl := Except.ok.inj h
    exact hrest

theorem isLegalText_of_declaration {cs rest : List Char} (h : declaration cs = .ok rest)
    (hrest : IsLegalText rest) : IsLegalText cs := by
  have hparts : ∀ {left}, (do
      let after ← declarationPart ['s', 't', 'a', 'n', 'd', 'a', 'l', 'o', 'n', 'e'] left
      expectChars ['?', '>'] (skipSpace after)) = .ok rest → IsLegalText left := by
    intro left h
    obtain ⟨after, hpart, hend⟩ := bind_eq_ok_iff.mp h
    have hafter := isLegalText_of_expectChars hend (by decide) hrest
    exact isLegalText_of_declarationPart hpart (isLegalText_of_skipSpace hafter)
  apply isLegalText_of_skipSpace
  simp only [declaration] at h
  split at h
  · obtain ⟨⟨version, afterVersion⟩, hversion, h⟩ := bind_eq_ok_iff.mp h
    obtain ⟨beforeEncoding, hgap, h⟩ := bind_eq_ok_iff.mp h
    apply isLegalText_of_readAttribute hversion
    apply isLegalText_of_declarationGap hgap
    split at h
    · obtain ⟨⟨encoding, afterEncoding⟩, hencoding, h⟩ := bind_eq_ok_iff.mp h
      obtain ⟨left, hgap', h⟩ := bind_eq_ok_iff.mp h
      apply isLegalText_of_readAttribute hencoding
      exact isLegalText_of_declarationGap hgap' (hparts h)
    · exact hparts h
  · cases h

theorem isLegalText_of_afterDeclaration {cs rest : List Char} (h : afterDeclaration cs = .ok rest)
    (hrest : IsLegalText rest) : IsLegalText cs := by
  have hdeclaration : ∀ {more}, declaration more = .ok rest →
      IsLegalText ('<' :: '?' :: 'x' :: 'm' :: 'l' :: ' ' :: more) := by
    intro more h
    exact IsLegalText.append ['<', '?', 'x', 'm', 'l', ' '] (by decide)
      (isLegalText_of_declaration h hrest)
  -- A byte order mark may stand before everything else, and it is legal.
  by_cases hmark : ∃ more, cs = '\ufeff' :: more
  · obtain ⟨more, rfl⟩ := hmark
    simp only [afterDeclaration] at h
    split at h
    · exact (hdeclaration h).cons rfl
    · obtain rfl := Except.ok.inj h
      exact hrest.cons rfl
  · rw [afterDeclaration.eq_def] at h
    split at h
    · exact absurd ⟨_, rfl⟩ hmark
    · dsimp only at h
      split at h
      · exact hdeclaration h
      · obtain rfl := Except.ok.inj h
        exact hrest

/-- **A text that is read holds legal characters only.** -/
theorem isLegalText_of_readNodes {text : String} {nodes : List Node}
    (h : readNodes text = .ok nodes) : IsLegalText text.toList := by
  obtain ⟨ts, hscan, -⟩ := bind_eq_ok_iff.mp h
  obtain ⟨body, hbody, hts⟩ := bind_eq_ok_iff.mp hscan
  exact isLegalText_of_afterDeclaration hbody (isLegalText_of_scanFrom hts)

end ScreenInspector.Markup
