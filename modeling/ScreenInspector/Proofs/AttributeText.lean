/-
  ScreenInspector/Proofs/AttributeText.lean
  =========================================
  **Attributes that were written are read back.**

  A written value holds neither a quote nor an opening bracket, because the characters of markup
  stand there as references; so the reader finds the end of the value where the writer put it
  (`upTo_escaped`), and dereferencing gives the characters of the value again, each with a note
  whether it was a reference (`pieces_escaped`).  Only a literal tab or line end is changed by
  reading: a value without them comes back as it was (`attributeValue_escaped`).

  Attributes stand one after the other in a start tag, each after a space.  `readAttributes_written`
  reads all of them and the end of the tag.
-/
import ScreenInspector.Markup.Content
import ScreenInspector.Markup.Token
import ScreenInspector.Proofs.Outcomes
import ScreenInspector.Screen.SourceText

namespace ScreenInspector.Markup

/-! ### Values -/

/-- A character that is written as a reference. -/
def isMarkup (c : Char) : Bool :=
  c == '&' || c == '<' || c == '>' || c == '\x22' || c == '\x27'

/-- How a written character is read. -/
def writtenPiece (c : Char) : Piece := ⟨c, isMarkup c⟩

/-- A character that an attribute carries unchanged: legal, and neither tab nor line end. -/
def isCarried (c : Char) : Bool :=
  isLegal c && !(c == '\t' || c == '\n' || c == '\r')

theorem isLegal_of_isCarried {c : Char} (h : isCarried c = true) : isLegal c = true := by
  simp only [isCarried, Bool.and_eq_true] at h
  exact h.1

theorem escapedChar_of_not_isMarkup {c : Char} (h : isMarkup c = false) : escapedChar c = [c] := by
  simp only [isMarkup, Bool.or_eq_false_iff, beq_eq_false_iff_ne] at h
  obtain ⟨⟨⟨⟨hamp, hlt⟩, hgt⟩, hquot⟩, hapos⟩ := h
  simp only [escapedChar, hamp, hlt, hgt, hquot, hapos, if_false]

theorem eq_of_isMarkup {c : Char} (h : isMarkup c = true) :
    c = '&' ∨ c = '<' ∨ c = '>' ∨ c = '\x22' ∨ c = '\x27' := by
  simpa only [isMarkup, Bool.or_eq_true, beq_iff_eq, or_assoc] using h

theorem piecesFrom_escapedChar (c : Char) (rest : List Char) :
    piecesFrom none (escapedChar c ++ rest) =
      (piecesFrom none rest).map fun more => writtenPiece c :: more := by
  cases hmarkup : isMarkup c with
  | true =>
    rcases eq_of_isMarkup hmarkup with rfl | rfl | rfl | rfl | rfl <;> rfl
  | false =>
    have hamp : c ≠ '&' := by
      rintro rfl
      exact absurd hmarkup (by decide)
    rw [escapedChar_of_not_isMarkup hmarkup, List.singleton_append, piecesFrom]
    · rw [writtenPiece, hmarkup]
      rfl
    · exact hamp

theorem pieces_escaped (value : List Char) :
    pieces (escaped value) = .ok (value.map writtenPiece) := by
  unfold pieces escaped
  induction value with
  | nil => rfl
  | cons c rest ih =>
    rw [List.flatMap_cons, piecesFrom_escapedChar, ih]
    rfl

/-- What a written value is read as. -/
def readBack (value : List Char) : List Char :=
  attributeChars (value.map writtenPiece)

theorem attributeValue_escaped (value : List Char) :
    attributeValue (escaped value) = .ok (readBack value) := by
  rw [attributeValue, pieces_escaped]
  rfl

theorem readBack_of_isCarried {value : List Char} (h : ∀ c ∈ value, isCarried c = true) :
    readBack value = value := by
  unfold readBack
  induction value with
  | nil => rfl
  | cons c rest ih =>
    have hc := h c List.mem_cons_self
    have hrest := ih fun d hd => h d (List.mem_cons_of_mem c hd)
    simp only [isCarried, Bool.and_eq_true, Bool.not_eq_true', Bool.or_eq_false_iff,
      beq_eq_false_iff_ne] at hc
    obtain ⟨-, ⟨htab, hline⟩, hreturn⟩ := hc
    simp only [List.map_cons, attributeChars, writtenPiece, htab, hline, hreturn, false_and,
      or_self, if_false, ite_self]
    exact congrArg (c :: ·) hrest

/-! ### Where a value ends -/

/-- Reading stops at the first character at which it may stop. -/
theorem upTo_append {stop : List Char → Bool} {cs : List Char} {d : Char} {rest : List Char}
    (hlegal : ∀ c ∈ cs, isLegal c = true) (hgo : ∀ c ∈ cs, ∀ after, stop (c :: after) = false)
    (hd : isLegal d = true) (hstop : stop (d :: rest) = true) :
    upTo stop (cs ++ d :: rest) = .ok (cs, d :: rest) := by
  induction cs with
  | nil => simp [upTo, hd, hstop]
  | cons c more ih =>
    have hmore := ih (fun e he => hlegal e (List.mem_cons_of_mem c he))
      (fun e he => hgo e (List.mem_cons_of_mem c he))
    simp [upTo, hlegal c List.mem_cons_self, hgo c List.mem_cons_self, hmore]

theorem mem_escaped {value : List Char} (h : ∀ c ∈ value, isLegal c = true) {d : Char}
    (hd : d ∈ escaped value) : isLegal d = true ∧ d ≠ '\x22' ∧ d ≠ '<' := by
  obtain ⟨c, hc, hd⟩ := List.mem_flatMap.mp hd
  cases hmarkup : isMarkup c with
  | true =>
    have hall : (escapedChar c).all (fun e => isLegal e && e != '\x22' && e != '<') = true := by
      rcases eq_of_isMarkup hmarkup with rfl | rfl | rfl | rfl | rfl <;> decide
    simpa [and_assoc] using List.all_eq_true.mp hall d hd
  | false =>
    rw [escapedChar_of_not_isMarkup hmarkup, List.mem_singleton] at hd
    subst hd
    refine ⟨h d hc, ?_, ?_⟩ <;>
    · rintro rfl
      exact absurd hmarkup (by decide)

theorem upTo_escaped {value : List Char} (h : ∀ c ∈ value, isLegal c = true) (rest : List Char) :
    upTo (fun left => left.head? == some '\x22' || left.head? == some '<')
        (escaped value ++ '\x22' :: rest) = .ok (escaped value, '\x22' :: rest) := by
  apply upTo_append
  · exact fun c hc => (mem_escaped h hc).1
  · intro c hc after
    obtain ⟨-, hquote, hbracket⟩ := mem_escaped h hc
    simp [hquote, hbracket]
  · decide
  · rfl

/-! ### Names -/

theorem isNameChar_of_isNameStart {c : Char} (h : isNameStart c = true) :
    isNameChar c = true := by
  simp only [isNameStart] at h
  simp only [isNameChar]
  split at h
  next hlow =>
    rw [if_pos hlow]
    simp only [Bool.or_eq_true, beq_iff_eq] at h
    rcases h with h | rfl
    · simp [Char.isAlphanum, h]
    · decide
  next hhigh => simp [hhigh, isNameStart, h]

/-- A name without qualifier ends before a character that is none of a name and no colon. -/
theorem qname_append {name : List Char} (hname : isName name = true) {d : Char} (rest : List Char)
    (hd : isNameChar d = false) (hcolon : d ≠ ':') :
    qname (name ++ d :: rest) = .ok (⟨[], name⟩, d :: rest) := by
  have hall : ∀ c ∈ name, isNameChar c = true := by
    cases name with
    | nil => simp
    | cons c more =>
      simp only [isName, Bool.and_eq_true, List.all_eq_true] at hname
      intro e he
      rcases List.mem_cons.mp he with rfl | he
      · exact isNameChar_of_isNameStart hname.1
      · exact hname.2 e he
  have htake : (name ++ d :: rest).takeWhile isNameChar = name := by
    rw [List.takeWhile_append_of_pos hall]
    simp [hd]
  have hdrop : (name ++ d :: rest).dropWhile isNameChar = d :: rest := by
    rw [List.dropWhile_append_of_pos hall]
    simp [hd]
  simp only [qname, htake, hdrop, hname, if_true]
  split
  next heq =>
    injection heq with heq
    exact absurd heq hcolon
  next => rfl

theorem exists_cons_of_isName {name : List Char} (h : isName name = true) :
    ∃ c cs, name = c :: cs ∧ isNameStart c = true := by
  cases name with
  | nil => exact absurd h (by decide)
  | cons c cs =>
    simp only [isName, Bool.and_eq_true] at h
    exact ⟨c, cs, rfl, h.1⟩

theorem ne_of_isNameStart {c d : Char} (h : isNameStart c = true) (hd : isNameStart d = false) :
    c ≠ d := by
  rintro rfl
  rw [h] at hd
  exact Bool.noConfusion hd

theorem isSpace_of_isNameStart {c : Char} (h : isNameStart c = true) : isSpace c = false := by
  simp only [isSpace, Bool.or_eq_false_iff, beq_eq_false_iff_ne]
  exact ⟨⟨⟨ne_of_isNameStart h (by decide), ne_of_isNameStart h (by decide)⟩,
    ne_of_isNameStart h (by decide)⟩, ne_of_isNameStart h (by decide)⟩

/-! ### Attributes -/

theorem readAttribute_written {name value : List Char} (hname : isName name = true)
    (hvalue : ∀ c ∈ value, isLegal c = true) (rest : List Char) :
    readAttribute (name ++ '=' :: '\x22' :: (escaped value ++ '\x22' :: rest)) =
      .ok ((⟨[], name⟩, escaped value), rest) := by
  have hq := qname_append hname (d := '=') ('\x22' :: (escaped value ++ '\x22' :: rest))
    (by decide) (by decide)
  have hequal : expectChars ['='] (skipSpace ('=' :: '\x22' :: (escaped value ++ '\x22' :: rest))) =
      .ok ('\x22' :: (escaped value ++ '\x22' :: rest)) := rfl
  have hspace : skipSpace ('\x22' :: (escaped value ++ '\x22' :: rest)) =
      '\x22' :: (escaped value ++ '\x22' :: rest) := rfl
  simp only [readAttribute, hq, ok_bind, hequal, hspace, true_or, if_true]
  rw [upTo_escaped hvalue, ok_bind]
  rfl

/-- The attributes of a start tag as they are written. -/
def writtenAttributes (attributes : List (List Char × List Char)) : List Char :=
  attributes.flatMap fun a => attributeText a.1 a.2

/-- The attributes of a start tag as they are read: values stay raw. -/
def rawAttributes (attributes : List (List Char × List Char)) : List (QName × List Char) :=
  attributes.map fun a => (⟨[], a.1⟩, escaped a.2)

def tagEnd (closed : Bool) : List Char :=
  if closed then ['/', '>'] else ['>']

theorem readAttributes_tagEnd (fuel : Nat) (closed : Bool) (rest : List Char) :
    readAttributes (fuel + 1) (tagEnd closed ++ rest) = .ok (([], closed), rest) := by
  cases closed <;> rfl

/-- **All attributes of a start tag are read**, and then its end. -/
theorem readAttributes_written {attributes : List (List Char × List Char)}
    (hnames : ∀ a ∈ attributes, isName a.1 = true)
    (hvalues : ∀ a ∈ attributes, ∀ c ∈ a.2, isLegal c = true)
    {fuel : Nat} (hfuel : attributes.length < fuel) (closed : Bool) (rest : List Char) :
    readAttributes fuel (writtenAttributes attributes ++ (tagEnd closed ++ rest)) =
      .ok ((rawAttributes attributes, closed), rest) := by
  induction attributes generalizing fuel with
  | nil =>
    obtain ⟨fuel, rfl⟩ := Nat.exists_eq_succ_of_ne_zero (Nat.ne_of_gt hfuel)
    exact readAttributes_tagEnd fuel closed rest
  | cons a more ih =>
    obtain ⟨name, value⟩ := a
    obtain ⟨fuel, rfl⟩ := Nat.exists_eq_succ_of_ne_zero (Nat.ne_of_gt (Nat.lt_of_le_of_lt
      (Nat.zero_le _) hfuel))
    have hlength : more.length < fuel := by
      rw [List.length_cons] at hfuel
      omega
    have hmore := ih (fun b hb => hnames b (List.mem_cons_of_mem _ hb))
      (fun b hb => hvalues b (List.mem_cons_of_mem _ hb)) hlength
    have hname : isName name = true := hnames (name, value) List.mem_cons_self
    have hone := readAttribute_written hname (hvalues (name, value) List.mem_cons_self)
      (writtenAttributes more ++ (tagEnd closed ++ rest))
    have htext : writtenAttributes ((name, value) :: more) ++ (tagEnd closed ++ rest) =
        ' ' :: (name ++ '=' :: '\x22' :: (escaped value ++ '\x22' ::
          (writtenAttributes more ++ (tagEnd closed ++ rest)))) := by
      simp [writtenAttributes, attributeText]
    rw [htext]
    obtain ⟨c, cs, rfl, hstart⟩ := exists_cons_of_isName hname
    have hskip : ∀ left, skipSpace (' ' :: (c :: cs ++ left)) = c :: cs ++ left := by
      intro left
      simp [skipSpace, isSpace_of_isNameStart hstart, show isSpace ' ' = true from rfl]
    rw [readAttributes, hskip]
    split
    next heq => simp at heq
    next heq =>
      injection heq with heq
      exact absurd heq (ne_of_isNameStart hstart (by decide))
    next heq =>
      injection heq with heq
      exact absurd heq (ne_of_isNameStart hstart (by decide))
    next =>
      simp only [hone, hmore, ok_bind]
      rfl

end ScreenInspector.Markup
