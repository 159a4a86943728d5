/-
  ScreenInspector/Proofs/Tags.lean
  ================================
  **Tags can stand in markup and in expressions.**

  A tag begins with an ASCII letter or an underscore and goes on with ASCII letters, digits,
  underscores and hyphens, whatever the kind is.  Both readers take such a text as one name: the
  markup reader up to the next space or bracket, the expression reader up to the next character
  that is none of a name.
-/
import ScreenInspector.Expression.Lexer
import ScreenInspector.Markup.Token
import ScreenInspector.Screen.Element
import Mathlib

namespace ScreenInspector

/-! ### Characters -/

theorem isTagChar_of_isTagStart {c : Char} (h : isTagStart c = true) : isTagChar c = true := by
  simp only [isTagStart, isTagChar, Char.isAlphanum, Bool.or_eq_true] at h ⊢
  rcases h with h | h
  · exact Or.inl (Or.inl (Or.inl h))
  · exact Or.inl (Or.inr h)

theorem toNat_lt_of_isTagChar {c : Char} (h : isTagChar c = true) : c.toNat < 0x80 := by
  simp only [isTagChar, Char.isAlphanum, Char.isAlpha, Char.isUpper, Char.isLower, Char.isDigit,
    Bool.or_eq_true, Bool.and_eq_true, decide_eq_true_eq, beq_iff_eq, UInt32.le_iff_toNat_le] at h
  rcases h with ((((⟨-, h⟩ | ⟨-, h⟩) | ⟨-, h⟩) | rfl) | rfl)
  · exact Nat.lt_of_le_of_lt h (by decide)
  · exact Nat.lt_of_le_of_lt h (by decide)
  · exact Nat.lt_of_le_of_lt h (by decide)
  · decide
  · decide

theorem markupNameChar_of_isTagChar {c : Char} (h : isTagChar c = true) :
    Markup.isNameChar c = true := by
  have hlow := toNat_lt_of_isTagChar h
  simp only [isTagChar, Bool.or_eq_true, beq_iff_eq] at h
  simp only [Markup.isNameChar, if_pos hlow, Bool.or_eq_true, beq_iff_eq]
  exact Or.inl h

theorem markupNameStart_of_isTagStart {c : Char} (h : isTagStart c = true) :
    Markup.isNameStart c = true := by
  have hlow := toNat_lt_of_isTagChar (isTagChar_of_isTagStart h)
  simpa only [Markup.isNameStart, if_pos hlow, isTagStart] using h

theorem expressionNameChar_of_isTagChar {c : Char} (h : isTagChar c = true) :
    Expression.isNameChar c = true := by
  have hlow := toNat_lt_of_isTagChar h
  simp only [isTagChar, Bool.or_eq_true, beq_iff_eq] at h
  simp only [Expression.isNameChar, Text.isLetterOrNumeral, if_pos hlow, Bool.or_eq_true,
    beq_iff_eq]
  exact Or.inl h

theorem expressionNameStart_of_isTagStart {c : Char} (h : isTagStart c = true) :
    Expression.isNameStart c = true := by
  have hlow := toNat_lt_of_isTagChar (isTagChar_of_isTagStart h)
  simpa only [Expression.isNameStart, Text.isLetter, if_pos hlow, isTagStart] using h

/-! ### Tags -/

/-- The shape of a tag: a beginning that a tag may have, then characters that a tag may hold. -/
def IsTag : List Char → Prop
  | [] => False
  | c :: rest => isTagStart c = true ∧ ∀ d ∈ rest, isTagChar d = true

theorem isTag_tagChars (kind : List Char) : IsTag (tagChars kind) := by
  have hmap : ∀ c ∈ (afterLast '$' (afterLast '.' kind)).map
      fun c => if isTagChar c then c else '_', isTagChar c = true := by
    intro c hc
    obtain ⟨d, -, rfl⟩ := List.mem_map.mp hc
    split
    · assumption
    · decide
  simp only [tagChars]
  split
  next c rest hsimple =>
    rw [hsimple] at hmap
    split
    · rw [hsimple]
      exact ⟨‹_›, fun d hd => hmap d (List.mem_cons_of_mem c hd)⟩
    · rw [hsimple]
      exact ⟨by decide, hmap⟩
  · exact ⟨by decide, by simp⟩

namespace IsTag

variable {cs : List Char}

theorem all_isTagChar (h : IsTag cs) : ∀ c ∈ cs, isTagChar c = true := by
  cases cs with
  | nil => simp
  | cons c cs => exact List.forall_mem_cons.mpr ⟨isTagChar_of_isTagStart h.1, h.2⟩

theorem not_mem (h : IsTag cs) {c : Char} (hc : isTagChar c = false) : c ∉ cs := by
  intro hmem
  rw [h.all_isTagChar c hmem] at hc
  cases hc

theorem exists_cons (h : IsTag cs) :
    ∃ c rest, cs = c :: rest ∧ (c.isAlpha = true ∨ c = '_') ∧
      ∀ d ∈ c :: rest, d.toNat < 0x80 ∧ (d.isAlphanum = true ∨ d = '_' ∨ d = '-') := by
  have hall := h.all_isTagChar
  cases cs with
  | nil => exact h.elim
  | cons c rest =>
    refine ⟨c, rest, rfl, by simpa [isTagStart] using h.1, fun d hd => ?_⟩
    have hd := hall d hd
    exact ⟨toNat_lt_of_isTagChar hd, by simpa [isTagChar, or_assoc] using hd⟩

theorem markupName (h : IsTag cs) : Markup.isName cs = true := by
  cases cs with
  | nil => exact h.elim
  | cons c rest =>
    simp only [Markup.isName, Bool.and_eq_true, List.all_eq_true]
    exact ⟨markupNameStart_of_isTagStart h.1, fun d hd => markupNameChar_of_isTagChar (h.2 d hd)⟩

end IsTag

end ScreenInspector
