/-
  ScreenInspector/Proofs/BlankSeparation.lean
  ===========================================
  **Blanks between tokens mean nothing.**

  No blank character prolongs a token (`endsToken_of_isBlank`), so two texts with blanks between
  them have the tokens of the one and then those of the other (`scan_separated`).  Since a text can
  be cut between any two of its tokens, blanks can be put there without a change of what it says.
  Parentheses with a place behind them are tokens of their own (`scan_indexed`).

  There are 25 blank characters, most of them far from ASCII.  That none of them is a letter or a
  numeral is looked up in the tables of these.
-/
import ScreenInspector.Expression.Grammar
import ScreenInspector.Locator.Synthesis
import ScreenInspector.Proofs.TokenComposition

namespace ScreenInspector.Expression

/-! ### Blanks -/

/-- The code points of the blank characters. -/
def blankCodes : List Nat :=
  [0x9, 0xA, 0xB, 0xC, 0xD, 0x20, 0x85, 0xA0, 0x1680, 0x2000, 0x2001, 0x2002, 0x2003, 0x2004,
   0x2005, 0x2006, 0x2007, 0x2008, 0x2009, 0x200A, 0x2028, 0x2029, 0x202F, 0x205F, 0x3000]

theorem toNat_mem_blankCodes {c : Char} (h : Text.isBlank c = true) : c.toNat ∈ blankCodes := by
  simp only [Text.isBlank, Bool.or_eq_true, Bool.and_eq_true, decide_eq_true_eq, beq_iff_eq] at h
  simp only [blankCodes, List.mem_cons, List.not_mem_nil, or_false]
  omega

/-- **A blank prolongs no token.** -/
theorem endsToken_of_isBlank {c : Char} (h : Text.isBlank c = true) : EndsToken c := by
  have hall : ∀ n ∈ blankCodes, EndsToken (Char.ofNat n) := by decide +kernel
  have hc := hall c.toNat (toNat_mem_blankCodes h)
  rwa [Char.ofNat_toNat] at hc

theorem Scans.blanks {w rest : List Char} {ts : List Token} (hw : ∀ c ∈ w, Text.isBlank c = true)
    (hrest : Scans rest ts) : Scans (w ++ rest) ts := by
  induction w with
  | nil => exact hrest
  | cons c w ih =>
    rw [List.forall_mem_cons] at hw
    exact Scans.blank hw.1 (ih hw.2)

section Composition

variable {a b w : String} {ts ts' : List Token}

/-- **Texts with blanks between them** have the tokens of the one and then those of the other. -/
theorem scan_separated (ha : Token.scan a = .ok ts) (hb : Token.scan b = .ok ts') (hne : w ≠ "")
    (hw : ∀ c ∈ w.toList, Text.isBlank c = true) :
    Token.scan (a ++ w ++ b) = .ok (ts ++ ts') := by
  have hblanks : Scans (w.toList ++ b.toList) ts' := Scans.blanks hw (scans_of_scan hb)
  have hend : ∀ d ∈ (w.toList ++ b.toList).head?, EndsToken d := by
    intro d hd
    rw [List.head?_append_of_ne_nil _ (by simpa using hne)] at hd
    exact endsToken_of_isBlank (hw d (List.mem_of_mem_head? hd))
  apply Scans.scan
  rw [String.toList_append, String.toList_append, List.append_assoc]
  exact Scans.append ha hend hblanks

/-- **A text in parentheses with a place behind them** has its own tokens, whatever they are, and
those of the group and the place. -/
theorem scan_indexed (ha : Token.scan a = .ok ts) (i : Nat) :
    Token.scan (Locator.indexed a i) = .ok (.openParen :: (ts ++ [.closeParen, .openBracket,
      .number (Number.scaled i 0), .closeBracket])) := by
  apply Scans.scan
  rw [Locator.toList_indexed]
  exact Scans.group ha (Scans.place i)

end Composition

/-! ### The main result -/

/-- **Tokens are composed as texts are.**  Two texts that are cut into tokens can be put together
with blanks between them, and the tokens are put together as well.  A text that is cut into tokens
can be cut between any two of them, and wherever it is, blanks put there do not change what
expression it writes.  Put in parentheses with a place behind them, a text keeps its tokens, between
those of the parentheses and of the place; the place is read as the double nearest to it. -/
theorem tokens_compose :
    (∀ (a b w : String) (ts ts' : List Token), Token.scan a = .ok ts → Token.scan b = .ok ts' →
      w ≠ "" → (∀ c ∈ w.toList, Text.isBlank c = true) →
        Token.scan (a ++ w ++ b) = .ok (ts ++ ts')) ∧
    (∀ (text : String) (ts ts' : List Token), Token.scan text = .ok (ts ++ ts') →
      (∃ a b, text = a ++ b ∧ Token.scan a = .ok ts ∧ Token.scan b = .ok ts') ∧
      ∀ a b w : String, text = a ++ b → Token.scan a = .ok ts → Token.scan b = .ok ts' →
        (∀ c ∈ w.toList, Text.isBlank c = true) → Expr.parse (a ++ w ++ b) = Expr.parse text) ∧
    (∀ (a : String) (ts : List Token) (i : Nat), Token.scan a = .ok ts → 0 < i →
      Token.scan ("(" ++ a ++ ")[" ++ toString i ++ "]") =
        .ok (.openParen :: (ts ++ [.closeParen, .openBracket, .number (Number.scaled i 0),
          .closeBracket])) ∧
      (i < 2 ^ 64 → Number.scaled i 0 = Number.ofNat i)) := by
  refine ⟨fun a b w ts ts' => scan_separated, ?_, ?_⟩
  · intro text ts ts' h
    constructor
    · obtain ⟨as, bs, htext, has, hbs⟩ := Scans.split h
      refine ⟨String.ofList as, String.ofList bs, ?_, Scans.scan ?_, Scans.scan ?_⟩
      · apply String.toList_injective
        simpa using htext
      · rwa [String.toList_ofList]
      · rwa [String.toList_ofList]
    · intro a b w htext ha hb hw
      by_cases hne : w = ""
      · rw [hne, String.append_empty, htext]
      · rw [Expr.parse, Expr.parse, h, scan_separated ha hb hne hw]
  · intro a ts i ha hpos
    exact ⟨scan_indexed ha i, fun hword => Number.scaled_zero_of_lt_word hpos hword⟩

/-- A hyphen goes on a name unless an ideographic space keeps it apart; a comparison is a token of
its own without one. -/
theorem tokens_compose_hyphen :
    (Token.scan "item-2" = .ok [.name "item-2"] ∧ Token.scan "item" = .ok [.name "item"] ∧
      Token.scan "-@id" = .ok [.minus, .at, .name "id"] ∧
      (∀ c ∈ "\u3000".toList, Text.isBlank c = true) ∧
      Token.scan ("item" ++ "\u3000" ++ "-@id") = .ok [.name "item", .minus, .at, .name "id"]) ∧
    (Token.scan "item<=@id" = .ok [.name "item", .lessEqual, .at, .name "id"] ∧
      Token.scan "item<=" = .ok [.name "item", .lessEqual] ∧
      Token.scan "@id" = .ok [.at, .name "id"] ∧
      Expr.parse ("item<=" ++ "\u3000" ++ "@id") = Expr.parse "item<=@id") ∧
    Token.scan ("(" ++ "item-2" ++ ")[" ++ toString 12 ++ "]") = .ok [.openParen, .name "item-2",
      .closeParen, .openBracket, .number (Number.ofNat 12), .closeBracket] := by
  have hspace : ∀ c ∈ "\u3000".toList, Text.isBlank c = true := List.all_eq_true.mp rfl
  obtain ⟨happend, hcut, hwrap⟩ := tokens_compose
  have hjoined := happend "item" "-@id" "\u3000" _ _ rfl rfl (by decide) hspace
  have hleft : Token.scan "item<=" = .ok [.name "item", .lessEqual] := rfl
  have hright : Token.scan "@id" = .ok [.at, .name "id"] := rfl
  obtain ⟨-, hblanks⟩ := hcut "item<=@id" [.name "item", .lessEqual] [.at, .name "id"] rfl
  obtain ⟨hindexed, hnumber⟩ := hwrap "item-2" [.name "item-2"] 12 rfl (by decide)
  rw [hnumber (by decide)] at hindexed
  exact ⟨⟨rfl, rfl, rfl, hspace, hjoined⟩,
    ⟨rfl, hleft, hright, hblanks _ _ _ (by decide) hleft hright hspace⟩, hindexed⟩

end ScreenInspector.Expression
