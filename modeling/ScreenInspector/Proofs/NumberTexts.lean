/-
  ScreenInspector/Proofs/NumberTexts.lean
  =======================================
  **Numbers as they are written and read.**

  A number is written with an optional sign, a whole part, and perhaps a fraction and an exponent
  (`NumberText`).  The reader takes exactly these parts, whatever follows that no number could go on
  with (`number_written`).  The text of a whole number has these parts, and so has the text of a
  finite double: the digits that the search finds do not begin with a zero
  (`Number.isProper_shortest`), and every layout keeps them in order.

  So a whole number of 64 bits is read back as it was.  A double is read back as whatever the reader
  makes of its digits (`rereadReal`), which need not be the same double
  (`exists_rereadReal_ne`).
-/
import ScreenInspector.Json.Printer
import ScreenInspector.Json.Reader
import ScreenInspector.Proofs.Outcomes
import ScreenInspector.Proofs.WholeNumbers

namespace ScreenInspector

/-! ### Digits -/

namespace Number

/-- There are digits, and nothing else. -/
structure AreDigits (ds : List Char) : Prop where
  ne_nil : ds ≠ []
  digits : ∀ c ∈ ds, c.isDigit = true

/-- The digits of a whole number: no zero before others. -/
structure IsWhole (ds : List Char) : Prop extends AreDigits ds where
  single_of_zero : ds.head? = some '0' → ds = ['0']

theorem toDigits_cases (n : Nat) : n = 0 ∨ (Nat.toDigits 10 n).head? ≠ some '0' := by
  induction n using Nat.strong_induction_on with
  | h n ih =>
    rcases Nat.lt_or_ge n 10 with hsmall | hlarge
    · rw [Nat.toDigits_of_lt_base hsmall]
      interval_cases n <;> simp [Nat.digitChar]
    · rw [Nat.toDigits_of_base_le (by decide) hlarge]
      right
      rcases ih (n / 10) (by omega) with hzero | hhead
      · omega
      · rwa [List.head?_append_of_ne_nil _ Nat.toDigits_ne_nil]

theorem isWhole_toDigits (n : Nat) : IsWhole (Nat.toDigits 10 n) := by
  refine ⟨⟨Nat.toDigits_ne_nil, List.all_eq_true.mp (all_isDigit_toDigits n)⟩, ?_⟩
  intro hhead
  rcases toDigits_cases n with rfl | hother
  · rfl
  · exact absurd hhead hother

/-! ### The digits of a double -/

theorem Interval.onGrid?_ne_zero {i : Interval} {step : Int} {tieUp : Bool} {digits : Nat}
    (h : i.onGrid? step tieUp = some digits) : digits ≠ 0 := by
  simp only [onGrid?] at h
  generalize i.middle * Nat.pow 10 (-step).toNat / (i.denominator * Nat.pow 10 step.toNat) = below
    at h
  split at h
  next hlow _ =>
    have hbelow : below ≠ 0 := by simpa using (Bool.and_eq_true_iff.mp hlow).2
    split at h
    · rwa [← Option.some.inj h]
    · split at h
      · rw [← Option.some.inj h]
        exact Nat.succ_ne_zero below
      · split at h
        · rw [← Option.some.inj h]
          exact Nat.succ_ne_zero below
        · rw [← Option.some.inj h]
          split
          · exact hbelow
          · exact Nat.succ_ne_zero below
  next hlow _ =>
    have hbelow : below ≠ 0 := by simpa using (Bool.and_eq_true_iff.mp hlow).2
    rwa [← Option.some.inj h]
  · rw [← Option.some.inj h]
    exact Nat.succ_ne_zero below
  · cases h

/-- No digits were found, or they are those of a positive number. -/
def Digits.IsProper (d : Digits) : Prop :=
  d = ⟨0, 0⟩ ∨ d.digits ≠ 0

theorem Interval.isProper_search (i : Interval) (leading : Int) (tieUp : Bool) (fuel count : Nat) :
    (i.search leading tieUp fuel count).IsProper := by
  induction fuel generalizing count with
  | zero => exact Or.inl rfl
  | succ fuel ih =>
    rw [search]
    split
    next digits hgrid => exact Or.inr (onGrid?_ne_zero hgrid)
    next => exact ih (count + 1)

theorem Digits.IsProper.stripped {d : Digits} (h : d.IsProper) (fuel : Nat) :
    (d.stripped fuel).IsProper := by
  induction fuel generalizing d with
  | zero => exact h
  | succ fuel ih =>
    rw [Digits.stripped]
    split
    next hzeros => exact ih (Or.inr (by dsimp only; omega))
    next => exact h

theorem isProper_shortest (significand : Nat) (exponent : Int) (tieUp : Bool) :
    (shortest significand exponent tieUp).IsProper :=
  (Interval.isProper_search _ _ _ _ _).stripped _

end Number

/-! ### Parts of a number -/

namespace Json

/-- The parts of a number, as it is written. -/
structure NumberText where
  negative : Bool
  whole : List Char
  fraction : Option (List Char)
  /-- Whether the exponent is negative, and its digits. -/
  exponent : Option (Bool × List Char)

namespace NumberText

def fractionChars : Option (List Char) → List Char
  | none => []
  | some ds => '.' :: ds

def exponentChars : Option (Bool × List Char) → List Char
  | none => []
  | some (negative, ds) => 'e' :: (if negative then '-' else '+') :: ds

def chars (t : NumberText) : List Char :=
  (if t.negative then ['-'] else []) ++
    (t.whole ++ (fractionChars t.fraction ++ exponentChars t.exponent))

/-- The whole number that an exponent writes. -/
def exponentValue (e : Bool × List Char) : Int :=
  if e.1 then -(Number.ofDigitChars e.2 : Int) else Number.ofDigitChars e.2

/-- The parts consist of digits, and there are some in each. -/
structure IsProper (t : NumberText) : Prop where
  whole : Number.IsWhole t.whole
  fraction : ∀ ds, t.fraction = some ds → Number.AreDigits ds
  exponent : ∀ e, t.exponent = some e → Number.AreDigits e.2

end NumberText

/-- A text with which no number goes on. -/
def EndsNumber (rest : List Char) : Prop :=
  ∀ c more, rest = c :: more → c.isDigit = false ∧ c ≠ '.' ∧ c ≠ 'e' ∧ c ≠ 'E'

theorem endsNumber_nil : EndsNumber [] := by
  intro c more h
  cases h

theorem takeWhile_isDigit_append {ds : List Char} (rest : List Char)
    (hds : ∀ c ∈ ds, c.isDigit = true)
    (hrest : ∀ c more, rest = c :: more → c.isDigit = false) :
    (ds ++ rest).takeWhile Char.isDigit = ds ∧ (ds ++ rest).dropWhile Char.isDigit = rest := by
  rw [List.takeWhile_append_of_pos hds, List.dropWhile_append_of_pos hds]
  cases rest with
  | nil => simp
  | cons c more => simp [hrest c more rfl]

section Parts

variable {t : NumberText} {rest : List Char}

theorem exponentPart_written {e : Option (Bool × List Char)}
    (h : ∀ found, e = some found → Number.AreDigits found.2)
    (hrest : EndsNumber rest) :
    exponentPart (NumberText.exponentChars e ++ rest) =
      .ok (e.map NumberText.exponentValue, rest) := by
  cases e with
  | none =>
    cases rest with
    | nil => rfl
    | cons c more =>
      obtain ⟨-, -, hlower, hupper⟩ := hrest c more rfl
      show exponentPart (c :: more) = _
      rw [exponentPart]
      · rfl
      · exact fun rest heq => hlower (List.cons.inj heq).1
      · exact fun rest heq => hupper (List.cons.inj heq).1
  | some found =>
    obtain ⟨negative, ds⟩ := found
    obtain ⟨hsome, hdigits⟩ := h _ rfl
    obtain ⟨htake, hdrop⟩ := takeWhile_isDigit_append rest hdigits
      fun c more heq => (hrest c more heq).1
    have hnonempty : ds.isEmpty = false := List.isEmpty_eq_false_iff.mpr hsome
    cases negative with
    | true =>
      show (exponentAfterMark ('-' :: (ds ++ rest))).map _ = _
      simp [exponentAfterMark, Number.splitSign, htake, hdrop, hnonempty,
        NumberText.exponentValue]
    | false =>
      show (exponentAfterMark ('+' :: (ds ++ rest))).map _ = _
      simp [exponentAfterMark, Number.splitSign, htake, hdrop, hnonempty,
        NumberText.exponentValue]

theorem head_exponentChars {e : Option (Bool × List Char)} (hrest : EndsNumber rest)
    {c : Char} {more : List Char} (h : NumberText.exponentChars e ++ rest = c :: more) :
    c.isDigit = false ∧ c ≠ '.' := by
  cases e with
  | none =>
    obtain ⟨hdigit, hpoint, -⟩ := hrest c more h
    exact ⟨hdigit, hpoint⟩
  | some found =>
    obtain rfl : 'e' = c := (List.cons.inj h).1
    decide

theorem fractionPart_written {f : Option (List Char)}
    (h : ∀ ds, f = some ds → Number.AreDigits ds)
    (hrest : ∀ c more, rest = c :: more → c.isDigit = false ∧ c ≠ '.') :
    fractionPart (NumberText.fractionChars f ++ rest) = .ok (f, rest) := by
  cases f with
  | none =>
    cases rest with
    | nil => rfl
    | cons c more =>
      show fractionPart (c :: more) = _
      rw [fractionPart]
      exact fun rest heq => (hrest c more rfl).2 (List.cons.inj heq).1
  | some ds =>
    obtain ⟨hsome, hdigits⟩ := h ds rfl
    obtain ⟨htake, hdrop⟩ := takeWhile_isDigit_append rest hdigits
      fun c more heq => (hrest c more heq).1
    show fractionPart ('.' :: (ds ++ rest)) = _
    simp [fractionPart, htake, hdrop, hsome]

theorem head_fractionChars {f : Option (List Char)}
    (hrest : ∀ c more, rest = c :: more → c.isDigit = false ∧ c ≠ '.')
    {c : Char} {more : List Char} (h : NumberText.fractionChars f ++ rest = c :: more) :
    c.isDigit = false := by
  cases f with
  | none => exact (hrest c more h).1
  | some ds =>
    obtain rfl : '.' = c := (List.cons.inj h).1
    rfl

theorem wholePart_written {whole : List Char} (h : Number.IsWhole whole)
    (hrest : ∀ c more, rest = c :: more → c.isDigit = false) :
    wholePart (whole ++ rest) = .ok (whole, rest) := by
  obtain ⟨c, more, rfl⟩ := List.exists_cons_of_ne_nil h.ne_nil
  by_cases hzero : c = '0'
  · subst hzero
    obtain rfl : more = [] := by simpa using h.single_of_zero rfl
    cases rest with
    | nil => rfl
    | cons d rest => simp [wholePart, hrest d rest rfl]
  · have hdigit := h.digits c List.mem_cons_self
    obtain ⟨htake, hdrop⟩ := takeWhile_isDigit_append rest h.digits hrest
    rw [List.cons_append] at htake hdrop ⊢
    simp only [wholePart, if_neg hzero, if_pos hdigit, htake, hdrop]

theorem number_of_ne {c : Char} (h : c ≠ '-') (more : List Char) :
    number (c :: more) = numberAfterSign false (c :: more) := by
  rw [number]
  exact fun rest heq => h (List.cons.inj heq).1

/-- **A number is read by its parts**, whatever stands behind it. -/
theorem number_written (ht : t.IsProper) (hrest : EndsNumber rest) :
    number (t.chars ++ rest) =
      (numberOf t.negative t.whole t.fraction (t.exponent.map NumberText.exponentValue)).map
        fun v => (v, rest) := by
  -- What stands behind a part is the next part, so the parts are taken from the last one on.
  have hexponent := exponentPart_written ht.exponent hrest
  have hbehind : ∀ c more, NumberText.exponentChars t.exponent ++ rest = c :: more →
      c.isDigit = false ∧ c ≠ '.' := fun c more h => head_exponentChars hrest h
  have hfraction := fractionPart_written ht.fraction hbehind
  have hwhole := wholePart_written ht.whole fun c more h =>
    head_fractionChars (f := t.fraction) hbehind h
  have hnumber : ∀ negative, numberAfterSign negative (t.whole ++
      (NumberText.fractionChars t.fraction ++ (NumberText.exponentChars t.exponent ++ rest))) =
      (numberOf negative t.whole t.fraction (t.exponent.map NumberText.exponentValue)).map
        fun v => (v, rest) := by
    intro negative
    simp only [numberAfterSign, hwhole, hfraction, hexponent, ok_bind]
    rfl
  rw [← hnumber, NumberText.chars]
  simp only [List.append_assoc]
  cases t.negative with
  | true => rfl
  | false =>
    obtain ⟨c, more, hc⟩ := List.exists_cons_of_ne_nil ht.whole.ne_nil
    rw [hc]
    apply number_of_ne
    rintro rfl
    have hdigit := ht.whole.digits '-' (by rw [hc]; exact List.mem_cons_self)
    cases hdigit

end Parts

/-! ### Whole numbers -/

theorem le_foldl_digits (ds : List Char) (n : Nat) :
    n ≤ ds.foldl (fun n c => n * 10 + (c.toNat - '0'.toNat)) n := by
  induction ds generalizing n with
  | nil => exact Nat.le_refl n
  | cons c rest ih =>
    rw [List.foldl_cons]
    exact Nat.le_trans (by omega) (ih _)

/-- Digits that all fit a significand are all taken. -/
theorem significandOf_eq {ds : List Char} {n : Nat}
    (h : ds.foldl (fun n c => n * 10 + (c.toNat - '0'.toNat)) n < Nat.pow 2 64) :
    significandOf n ds = (ds.foldl (fun n c => n * 10 + (c.toNat - '0'.toNat)) n, 0) := by
  induction ds generalizing n with
  | nil => rfl
  | cons c rest ih =>
    rw [List.foldl_cons] at h ⊢
    rw [significandOf, if_pos (Nat.lt_of_le_of_lt (le_foldl_digits rest _) h), ih h]

theorem significandOf_toDigits {n : Nat} (h : n < Nat.pow 2 64) :
    significandOf 0 (Nat.toDigits 10 n) = (n, 0) := by
  have hvalue := Number.ofDigitChars_toDigits n
  rw [Number.ofDigitChars] at hvalue
  rw [significandOf_eq (by rwa [hvalue]), hvalue]

/-- The parts of a whole number. -/
def NumberText.ofInt (n : Int) : NumberText :=
  ⟨decide (n < 0), Nat.toDigits 10 n.natAbs, none, none⟩

theorem NumberText.isProper_ofInt (n : Int) : (ofInt n).IsProper :=
  ⟨Number.isWhole_toDigits _, by simp [ofInt], by simp [ofInt]⟩

theorem NumberText.chars_ofInt (n : Int) : (ofInt n).chars = (toString n).toList := by
  cases n with
  | ofNat n =>
    show [] ++ (Nat.toDigits 10 n ++ ([] ++ [])) = (toString n).toList
    simp
  | negSucc n =>
    show (ofInt (Int.negSucc n)).chars = ("-" ++ (n + 1).repr).toList
    simp [ofInt, chars, fractionChars, exponentChars, Int.negSucc_lt_zero]

/-- **A whole number of 64 bits is read back.** -/
theorem number_toString {n : Int} (hlow : -2 ^ 63 ≤ n) (hhigh : n < 2 ^ 64) {rest : List Char}
    (hrest : EndsNumber rest) : number ((toString n).toList ++ rest) = .ok (.whole n, rest) := by
  have hpow : Nat.pow 2 63 = 2 ^ 63 ∧ Nat.pow 2 64 = 2 ^ 64 := ⟨rfl, rfl⟩
  have hfits : n.natAbs < Nat.pow 2 64 := by omega
  rw [← NumberText.chars_ofInt, number_written (NumberText.isProper_ofInt n) hrest]
  simp only [NumberText.ofInt, Option.map_none, numberOf, significandOf_toDigits hfits]
  by_cases hnegative : n < 0
  · have hsome : ¬ (n.natAbs = 0 ∨ Nat.pow 2 63 < n.natAbs) := by omega
    have hvalue : -(n.natAbs : Int) = n := by omega
    rw [decide_eq_true hnegative, if_neg (by decide), if_neg hsome, hvalue]
    rfl
  · have hvalue : (n.natAbs : Int) = n := by omega
    rw [decide_eq_false hnegative, if_pos (by decide), hvalue]
    rfl

/-! ### Doubles -/

open Float.Model Float.Model.UnpackedFloat in
/-- A finite double is a number. -/
theorem isNaN_of_isFinite {x : Float} (h : Number.isFinite x = true) : x.isNaN = false := by
  have hfield : (@unpackExponent Format.binary64 x.toModel.toBits.toBitVec).toNat =
      Number.exponentField x := by
    simp only [unpackExponent, Number.exponentField, Float.toBits, BitVec.toNat_cast,
      BitVec.extractLsb, BitVec.extractLsb'_toNat, Nat.shiftRight_eq_div_pow]
    rfl
  have hfull : @unpackExponent Format.binary64 x.toModel.toBits.toBitVec ≠ -1#11 := by
    intro heq
    rw [heq] at hfield
    rw [Number.isFinite, ← hfield] at h
    cases h
  show UnpackedFloat.isNaN (UnpackedFloat.unpack Format.binary64 x.toModel.toBits.toBitVec) = false
  simp only [UnpackedFloat.unpack]
  rw [if_neg hfull]
  split
  · split
    · rfl
    · rfl
  · rfl

namespace NumberText

/-- The parts of digits that are set without an exponent. -/
def positional (negative : Bool) (ds : List Char) (exponent : Int) : NumberText :=
  if 0 ≤ exponent then
    ⟨negative, ds ++ List.replicate exponent.toNat '0', some ['0'], none⟩
  else
    let places := (-exponent).toNat
    if places < ds.length then
      ⟨negative, ds.take (ds.length - places), some (ds.drop (ds.length - places)), none⟩
    else ⟨negative, ['0'], some (List.replicate (places - ds.length) '0' ++ ds), none⟩

/-- The parts of digits that are set with an exponent. -/
def scientific (negative : Bool) (ds : List Char) (leading : Int) : NumberText :=
  let exponent := (decide (leading < 0), Nat.toDigits 10 leading.natAbs)
  match ds with
  | d :: e :: rest => ⟨negative, [d], some (e :: rest), some exponent⟩
  | short => ⟨negative, short, none, some exponent⟩

/-- The parts of a finite double. -/
def ofReal (x : Float) : NumberText :=
  let p := Number.parts x
  if p.significand = 0 then ⟨p.negative, ['0'], some ['0'], none⟩
  else
    let d := Number.shortest p.significand p.exponent numberLayout.tieUp
    let ds := Nat.toDigits 10 d.digits
    let leading := d.exponent + (ds.length : Int) - 1
    if numberLayout.isPositional leading then positional p.negative ds d.exponent
    else scientific p.negative ds leading

theorem chars_positional (negative : Bool) (ds : List Char) (exponent : Int) :
    (positional negative ds exponent).chars =
      (if negative then ['-'] else []) ++ numberLayout.positional ds exponent := by
  rw [positional, Number.Layout.positional]
  split
  · simp [chars, fractionChars, exponentChars, numberLayout]
  · dsimp only
    split
    · simp [chars, fractionChars, exponentChars]
    · simp [chars, fractionChars, exponentChars]

theorem chars_scientific (negative : Bool) (ds : List Char) (leading : Int) :
    (scientific negative ds leading).chars =
      (if negative then ['-'] else []) ++ numberLayout.scientific ds leading := by
  have hmark : exponentChars (some (decide (leading < 0), Nat.toDigits 10 leading.natAbs)) =
      (if leading < 0 then ['e', '-'] else ['e', '+']) ++ Nat.toDigits 10 leading.natAbs := by
    by_cases hneg : leading < 0
    · simp [exponentChars, hneg]
    · simp [exponentChars, hneg]
  have hbody : (scientific false ds leading).chars = numberLayout.scientific ds leading := by
    cases ds with
    | nil => simp [scientific, Number.Layout.scientific, chars, fractionChars, hmark, numberLayout]
    | cons d ds =>
      cases ds with
      | nil =>
        simp [scientific, Number.Layout.scientific, chars, fractionChars, hmark, numberLayout]
      | cons e rest =>
        simp [scientific, Number.Layout.scientific, chars, fractionChars, hmark, numberLayout]
  cases negative with
  | false => exact hbody
  | true =>
    rw [← hbody]
    cases ds with
    | nil => rfl
    | cons d ds => cases ds <;> rfl

section Proper

variable {negative : Bool} {whole ds : List Char}

theorem isProper_decimal (hwhole : Number.IsWhole whole) (hds : Number.AreDigits ds) :
    (NumberText.mk negative whole (some ds) none).IsProper where
  whole := hwhole
  fraction found h := by rwa [← Option.some.inj h]
  exponent e h := by cases h

theorem isProper_power {f : Option (List Char)} {e : Bool × List Char}
    (hwhole : Number.IsWhole whole) (hf : ∀ ds, f = some ds → Number.AreDigits ds)
    (he : Number.AreDigits e.2) : (NumberText.mk negative whole f (some e)).IsProper where
  whole := hwhole
  fraction := hf
  exponent found h := by rwa [← Option.some.inj h]

theorem areDigits_zeros_append (k : Nat) (hds : Number.AreDigits ds) :
    Number.AreDigits (List.replicate k '0' ++ ds) := by
  refine ⟨by simp [hds.ne_nil], ?_⟩
  intro c hc
  rcases List.mem_append.mp hc with hc | hc
  · rw [List.eq_of_mem_replicate hc]
    rfl
  · exact hds.digits c hc

theorem isWhole_append_zeros {k : Nat} (hds : Number.IsWhole ds) (hzero : ds = ['0'] → k = 0) :
    Number.IsWhole (ds ++ List.replicate k '0') := by
  refine ⟨⟨by simp [hds.ne_nil], ?_⟩, ?_⟩
  · intro c hc
    rcases List.mem_append.mp hc with hc | hc
    · exact hds.digits c hc
    · rw [List.eq_of_mem_replicate hc]
      rfl
  · intro hhead
    rw [List.head?_append_of_ne_nil _ hds.ne_nil] at hhead
    have hsingle := hds.single_of_zero hhead
    rw [hzero hsingle, List.replicate_zero, List.append_nil, hsingle]

theorem isWhole_take {k : Nat} (hk : 0 < k) (hds : Number.IsWhole ds) (hne : ds ≠ ['0']) :
    Number.IsWhole (ds.take k) := by
  have hhead : (ds.take k).head? = ds.head? := by
    rw [List.head?_take, if_neg (Nat.ne_of_gt hk)]
  refine ⟨⟨?_, fun c hc => hds.digits c (List.mem_of_mem_take hc)⟩, ?_⟩
  · rw [ne_eq, ← List.head?_eq_none_iff, hhead, List.head?_eq_none_iff]
    exact hds.ne_nil
  · intro hzero
    rw [hhead] at hzero
    exact absurd (hds.single_of_zero hzero) hne

theorem isProper_positional {exponent : Int} (hds : Number.IsWhole ds)
    (hzero : ds = ['0'] → exponent = 0) : (positional negative ds exponent).IsProper := by
  have hnought : Number.IsWhole ['0'] := Number.isWhole_toDigits 0
  rw [positional]
  split
  · exact isProper_decimal (isWhole_append_zeros hds fun h => by simp [hzero h])
      hnought.toAreDigits
  · dsimp only
    split
    next hnegative hplaces =>
      have hne : ds ≠ ['0'] := fun h => hnegative (by simp [hzero h])
      apply isProper_decimal (isWhole_take (by omega) hds hne)
      refine ⟨?_, fun c hc => hds.digits c (List.mem_of_mem_drop hc)⟩
      rw [ne_eq, List.drop_eq_nil_iff]
      omega
    next => exact isProper_decimal hnought (areDigits_zeros_append _ hds.toAreDigits)

theorem isProper_scientific (hds : Number.IsWhole ds) (leading : Int) :
    (scientific negative ds leading).IsProper := by
  have hexponent := (Number.isWhole_toDigits leading.natAbs).toAreDigits
  match ds with
  | [] => exact absurd rfl hds.ne_nil
  | [d] => exact isProper_power hds (by simp) hexponent
  | d :: e :: rest =>
    apply isProper_power (isWhole_take Nat.one_pos hds (by simp)) _ hexponent
    rintro found hfound
    obtain rfl := Option.some.inj hfound
    exact ⟨by simp, fun c hc => hds.digits c (List.mem_cons_of_mem d hc)⟩

end Proper

theorem isProper_ofReal (x : Float) : (ofReal x).IsProper := by
  have hnought : Number.IsWhole ['0'] := Number.isWhole_toDigits 0
  rw [ofReal]
  dsimp only
  split
  · exact isProper_decimal hnought hnought.toAreDigits
  · have hproper := Number.isProper_shortest (Number.parts x).significand (Number.parts x).exponent
      numberLayout.tieUp
    generalize Number.shortest (Number.parts x).significand (Number.parts x).exponent
      numberLayout.tieUp = d at hproper
    split
    · apply isProper_positional (Number.isWhole_toDigits d.digits)
      -- Zeros may not follow a single zero, but that is written only where no digits were found.
      intro hdigits
      rcases hproper with rfl | hne
      · rfl
      · rcases Number.toDigits_cases d.digits with hzero | hhead
        · exact absurd hzero hne
        · exact absurd (by rw [hdigits]; rfl) hhead
    · exact isProper_scientific (Number.isWhole_toDigits d.digits) _

end NumberText

theorem chars_ofReal {x : Float} (h : Number.isFinite x = true) :
    (NumberText.ofReal x).chars = (renderReal x).toList := by
  rw [renderReal, if_pos h, Number.Layout.render, isNaN_of_isFinite h, h, NumberText.ofReal]
  simp only [Bool.false_eq_true, if_false, Bool.not_true]
  split
  · rw [String.toList_ofList]
    rfl
  · rw [String.toList_ofList]
    split
    · exact NumberText.chars_positional _ _ _
    · exact NumberText.chars_scientific _ _ _

/-- What the reader makes of a double that was written. -/
def rereadReal (x : Float) : Except Fault Json :=
  (number (renderReal x).toList).map Prod.fst

/-- **A finite double is read**, whatever stands behind it. -/
theorem number_renderReal {x : Float} (h : Number.isFinite x = true) {rest : List Char}
    (hrest : EndsNumber rest) :
    number ((renderReal x).toList ++ rest) = (rereadReal x).map fun v => (v, rest) := by
  have hproper := NumberText.isProper_ofReal x
  have halone := number_written hproper endsNumber_nil
  rw [List.append_nil, chars_ofReal h] at halone
  rw [rereadReal, halone, ← chars_ofReal h, number_written hproper hrest]
  cases numberOf (NumberText.ofReal x).negative (NumberText.ofReal x).whole
    (NumberText.ofReal x).fraction
    ((NumberText.ofReal x).exponent.map NumberText.exponentValue) with
  | error fault => rfl
  | ok v => rfl

/-- **Not every finite double comes back.**  The reader multiplies the digits by a power of ten that
is a double itself, so `3e23` becomes the double below it. -/
theorem exists_rereadReal_ne :
    ∃ x, Number.isFinite x = true ∧ rereadReal x ≠ .ok (.real x) := by
  refine ⟨3e23, by decide, ?_⟩
  intro hsame
  have hlower : (match rereadReal 3e23 with
    | .ok (.real y) => y == 3e23
    | _ => true) = false := by
    decide +kernel
  rw [hsame] at hlower
  have hself : ((3e23 : Float) == 3e23) = true := by decide
  exact absurd (hself.symm.trans hlower) (by decide)

end Json

end ScreenInspector
