/-
  ScreenInspector/Proofs/WholeNumbers.lean
  ========================================
  **Whole numbers as doubles.**

  A whole number below `2 ^ 53` fits into the significand of a double, so nothing is rounded: the
  number is shifted until its highest bit stands at the top, and the shift becomes the exponent.
  Two such numbers are therefore equal as doubles only if they are equal, and the decimal digits
  of one read back as it.  Positions and counts in expressions are compared as doubles; below the
  limit this is comparing whole numbers.
-/
import ScreenInspector.Number.Reading
import Mathlib

namespace ScreenInspector.Number

open Float.Model Float.Model.UnpackedFloat

/-! ### Numbers that fill a significand -/

/-- Whole numbers below this are doubles. -/
def exactLimit : Nat := 2 ^ 53

/-- The places by which a number below the limit is shifted to fill a significand. -/
def fillShift (n : Nat) : Nat := 52 - n.log2

theorem log2_le_of_lt_exactLimit {n : Nat} (hpos : 0 < n) (h : n < exactLimit) : n.log2 ≤ 52 := by
  have hlog : n.log2 < 53 := (Nat.log2_lt (by omega)).mpr h
  omega

theorem log2_mul_two_pow {n : Nat} (hpos : 0 < n) (k : Nat) : (n * 2 ^ k).log2 = n.log2 + k := by
  induction k with
  | zero => simp
  | succ k ih =>
    have hne : n * 2 ^ k ≠ 0 := by positivity
    rw [pow_succ, ← mul_assoc, Nat.mul_comm _ 2, Nat.log2_two_mul hne, ih]
    omega

theorem log2_filled {n : Nat} (hpos : 0 < n) (h : n < exactLimit) :
    (n * 2 ^ fillShift n).log2 = 52 := by
  have hlog := log2_le_of_lt_exactLimit hpos h
  rw [log2_mul_two_pow hpos, fillShift]
  omega

theorem filled_pos {n : Nat} (hpos : 0 < n) : 0 < n * 2 ^ fillShift n :=
  Nat.mul_pos hpos (Nat.two_pow_pos _)

theorem targetExponent_of_lt {n : Nat} (hpos : 0 < n) (h : n < exactLimit) :
    Format.binary64.targetExponent (totalExponent n 0) = -(fillShift n : Int) := by
  have hlog := log2_le_of_lt_exactLimit hpos h
  simp only [Format.targetExponent, totalExponent, Format.mantissaBits, Format.minExponent,
    fillShift]
  omega

theorem targetExponent_filled {n : Nat} (hpos : 0 < n) (h : n < exactLimit) :
    Format.binary64.targetExponent (totalExponent (n * 2 ^ fillShift n) (-(fillShift n : Int))) =
      -(fillShift n : Int) := by
  have hshift : fillShift n ≤ 52 := Nat.sub_le _ _
  simp only [Format.targetExponent, totalExponent, Format.mantissaBits, Format.minExponent,
    log2_filled hpos h]
  omega

/-- A number below the limit is not rounded: it is shifted until it fills a significand. -/
theorem round_of_lt {n : Nat} (hpos : 0 < n) (h : n < exactLimit) :
    UnpackedFloat.round Format.binary64 .positive n 0 =
      .finite .positive (n * 2 ^ fillShift n) (-(fillShift n : Int)) (filled_pos hpos) := by
  have hkeep : shiftToTargetExponent Format.binary64 (n * 2 ^ fillShift n) (-(fillShift n : Int))
      .exact = (⟨n * 2 ^ fillShift n, false, false⟩, -(fillShift n : Int)) := by
    simp only [shiftToTargetExponent, targetExponent_filled hpos h, shiftToExponent, sub_self]
    simp [ExtendedMantissa.ofMantissaAndAccuracy, HShiftRight.hShiftRight, Nat.repeat]
  have hround : (⟨n * 2 ^ fillShift n, false, false⟩ : ExtendedMantissa).roundedMantissa =
      n * 2 ^ fillShift n := rfl
  simp only [UnpackedFloat.round, targetExponent_of_lt hpos h, decreaseExponent, zero_sub, neg_neg,
    Int.toNat_natCast, Nat.shiftLeft_eq, roundWithAccuracy, hkeep, hround, dif_neg (Nat.ne_of_gt (filled_pos hpos))]

/-! ### Packing and unpacking -/

/-- The bit that a full significand leaves out is worth `2 ^ 52`. -/
theorem toNat_implicitBit (m : BitVec 52) : (1#1 ++ m).toNat = 2 ^ 52 + m.toNat := by
  have hor : 1 <<< 52 ||| m.toNat = 1 <<< 52 + m.toNat :=
    (Nat.shiftLeft_add_eq_or_of_lt m.isLt 1).symm
  rw [BitVec.toNat_append, show (1#1).toNat = 1 from rfl, hor, Nat.one_shiftLeft]

theorem unpackSign_packed {spec : Format} {sign : Sign} {e : BitVec spec.exponentBits}
    {m : BitVec spec.mantissaBitsWithoutImplicit} :
    unpackSign (packComponents spec sign e m) = sign.toBitVec := by
  ext i hi
  obtain rfl : i = 0 := Nat.lt_one_iff.mp hi
  simp [unpackSign, packComponents, BitVec.getLsbD_append, BitVec.getElem_append]

/-- Packing keeps a significand that is full, with an exponent in the middle of the range. -/
theorem unpack_pack_full {m k : Nat} (hlow : 2 ^ 52 ≤ m) (hhigh : m < 2 ^ 53) (hk : k ≤ 52) :
    UnpackedFloat.unpack Format.binary64
        (UnpackedFloat.pack Format.binary64 (.finite .positive m (-(k : Int)) (by omega))) =
      .finite .positive m (-(k : Int)) (by omega) := by
  have hlog : m.log2 = 52 := by
    have h1 : m.log2 < 53 := (Nat.log2_lt (by omega)).mpr hhigh
    have h2 : 52 ≤ m.log2 := (Nat.le_log2 (by omega)).mpr hlow
    omega
  have hbiased : (-(k : Int) + Format.binary64.exponentBias +
      Format.binary64.mantissaBitsWithoutImplicit).toNat = 1075 - k := by
    simp only [Format.exponentBias]
    omega
  have hexponent : (BitVec.ofNat 11 (1075 - k)).toNat = 1075 - k := by
    rw [BitVec.toNat_ofNat, Nat.mod_eq_of_lt (by omega)]
  have hnotFull : BitVec.ofNat 11 (1075 - k) ≠ -1#11 := by
    intro heq
    have := congrArg BitVec.toNat heq
    rw [hexponent, show (-1#11).toNat = 2047 from rfl] at this
    omega
  have hnotZero : BitVec.ofNat 11 (1075 - k) ≠ 0#11 := by
    intro heq
    have := congrArg BitVec.toNat heq
    rw [hexponent, show (0#11).toNat = 0 from rfl] at this
    omega
  have hmantissa : (1#1 ++ BitVec.ofNat 52 m).toNat = m := by
    rw [toNat_implicitBit, BitVec.toNat_ofNat, Nat.mod_eq_sub_mod hlow, Nat.mod_eq_of_lt (by omega)]
    omega
  have hpack : UnpackedFloat.pack Format.binary64 (.finite .positive m (-(k : Int)) (by omega)) =
      packComponents Format.binary64 .positive (BitVec.ofNat 11 (1075 - k)) (BitVec.ofNat 52 m) := by
    simp only [UnpackedFloat.pack, hbiased, hlog]
    rw [if_neg (by omega), if_pos (show 52 + 1 = Format.binary64.mantissaBits from rfl)]
  rw [hpack]
  simp only [UnpackedFloat.unpack, unpackExponent_packComponents, unpackMantissa_packComponents,
    unpackSign_packed, hnotFull, hnotZero, if_false, hmantissa]
  congr 1
  simp only [hexponent, Format.exponentBias]
  omega

theorem unpack_ofNat {n : Nat} (hpos : 0 < n) (h : n < exactLimit) :
    (ofNat n).toModel.unpack =
      .finite .positive (n * 2 ^ fillShift n) (-(fillShift n : Int)) (filled_pos hpos) := by
  have hne : n * 2 ^ fillShift n ≠ 0 := Nat.ne_of_gt (filled_pos hpos)
  have hlow : 2 ^ 52 ≤ n * 2 ^ fillShift n :=
    (Nat.le_log2 hne).mp (by rw [log2_filled hpos h])
  have hhigh : n * 2 ^ fillShift n < 2 ^ 53 :=
    (Nat.log2_lt hne).mp (by rw [log2_filled hpos h]; omega)
  have hword : n.toUInt64.toNat = n := by
    rw [UInt64.toNat_ofNat', Nat.mod_eq_of_lt]
    exact lt_trans h (by decide)
  have hcompare : compare (n : Int) 0 = .gt := Int.compare_eq_gt.mpr (by omega)
  have hmodel : (ofNat n).toModel = Float.Model.pack (.finite .positive (n * 2 ^ fillShift n)
      (-(fillShift n : Int)) (filled_pos hpos)) := by
    show Float.Model.pack (UnpackedFloat.ofNat Format.binary64 n.toUInt64.toNat) = _
    rw [hword, UnpackedFloat.ofNat, UnpackedFloat.ofInt, UnpackedFloat.normalize, hcompare]
    simp only [Int.toNat_natCast, round_of_lt hpos h]
  rw [hmodel]
  exact unpack_pack_full hlow hhigh (Nat.sub_le _ _)

theorem unpack_ofNat_zero : (ofNat 0).toModel.unpack = .zero .positive := by
  rfl

/-! ### Comparing and reading -/

/-- **Whole numbers below the limit are told apart**: no two of them are the same double. -/
theorem ofNat_beq_ofNat {m n : Nat} (hm : m < exactLimit) (hn : n < exactLimit) :
    (ofNat m == ofNat n) = decide (m = n) := by
  show ((ofNat m).toModel.unpack.compare (ofNat n).toModel.unpack == some .eq) = decide (m = n)
  rcases Nat.eq_zero_or_pos m with rfl | hmpos <;> rcases Nat.eq_zero_or_pos n with rfl | hnpos
  · rw [unpack_ofNat_zero]
    rfl
  · rw [unpack_ofNat_zero, unpack_ofNat hnpos hn]
    simp [UnpackedFloat.compare]
    omega
  · rw [unpack_ofNat_zero, unpack_ofNat hmpos hm]
    simp [UnpackedFloat.compare]
    omega
  · rw [unpack_ofNat hmpos hm, unpack_ofNat hnpos hn]
    -- Both significands are full, so they can only be equal if they were shifted by the same.
    have hsame : ((compare (-(fillShift m : Int)) (-(fillShift n : Int))).then
        (compare (m * 2 ^ fillShift m) (n * 2 ^ fillShift n)) = .eq) ↔ m = n := by
      rw [Ordering.then_eq_eq, compare_eq_iff_eq, compare_eq_iff_eq]
      constructor
      · rintro ⟨hshift, hfilled⟩
        have hshift : fillShift m = fillShift n := by omega
        rw [hshift] at hfilled
        exact Nat.eq_of_mul_eq_mul_right (Nat.two_pow_pos _) hfilled
      · rintro rfl
        exact ⟨rfl, rfl⟩
    simp only [UnpackedFloat.compare]
    rw [Bool.eq_iff_iff, beq_iff_eq, Option.some_inj, hsame, decide_eq_true_iff]

theorem ofDigitChars_toDigits (n : Nat) : ofDigitChars (Nat.toDigits 10 n) = n := by
  have hfold : ofDigitChars (Nat.toDigits 10 n) = Nat.ofDigitChars 10 (Nat.toDigits 10 n) 0 := by
    simp only [ofDigitChars, Nat.ofDigitChars_eq_foldl, Nat.mul_comm]
  rw [hfold, Nat.ofDigitChars_ten_toDigits]

theorem all_isDigit_toDigits (n : Nat) : (Nat.toDigits 10 n).all Char.isDigit = true := by
  rw [List.all_eq_true]
  intro c hc
  exact Nat.isDigit_of_mem_toDigits (by decide) (by decide) hc

/-- **The digits of a whole number are read** as the double nearest to it. -/
theorem magnitude_toDigits (n : Nat) : magnitude? (Nat.toDigits 10 n) = some (scaled n 0) := by
  have hdigits := all_isDigit_toDigits n
  have htake : (Nat.toDigits 10 n).takeWhile Char.isDigit = Nat.toDigits 10 n := by
    rw [List.takeWhile_eq_self_iff]
    exact List.all_eq_true.mp hdigits
  have hdrop : (Nat.toDigits 10 n).dropWhile Char.isDigit = [] := by
    rw [List.dropWhile_eq_nil_iff]
    exact List.all_eq_true.mp hdigits
  have hnonempty : (Nat.toDigits 10 n).isEmpty = false := by
    rw [List.isEmpty_eq_false_iff]
    exact Nat.toDigits_ne_nil
  simp only [magnitude?, htake, hdrop, hnonempty, Bool.false_and, exponentPart?, List.append_nil,
    ofDigitChars_toDigits]
  rfl

theorem scaled_zero_of_lt_word {n : Nat} (hpos : 0 < n) (h : n < 2 ^ 64) :
    scaled n 0 = ofNat n := by
  rw [scaled, if_neg (Nat.pos_iff_ne_zero.mp hpos), if_pos ⟨rfl, h⟩]

theorem scaled_zero_of_lt {n : Nat} (hpos : 0 < n) (h : n < exactLimit) : scaled n 0 = ofNat n :=
  scaled_zero_of_lt_word hpos (lt_trans h (by decide))

end ScreenInspector.Number
