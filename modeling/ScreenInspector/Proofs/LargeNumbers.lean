/-
  ScreenInspector/Proofs/LargeNumbers.lean
  ========================================
  **Whole numbers beyond the limit are no places.**

  A whole number from `2 ^ 53` on may be rounded when it is read, or become infinite.  But rounding
  to 53 bits only ever raises the exponent to what the size of the number asks for
  (`targetExponent_le_of_roundWithAccuracy`), so the exponent of what comes out is positive, whereas
  that of a number below the limit is not: such a number is shifted up to fill a significand.
  Packing keeps this apart (`isFar_unpack_pack`), and numbers with different exponents are not equal
  (`scaled_beq_ofNat`).  Nothing has to be known about the significand.
-/
import ScreenInspector.Proofs.WholeNumbers

namespace ScreenInspector.Number

open Float.Model Float.Model.UnpackedFloat

/-! ### Exponents -/

/-- An unpacked number whose exponent no whole number below the limit has. -/
def IsFar : UnpackedFloat → Prop
  | .finite _ _ exponent _ => 0 < exponent ∨ exponent < -52
  | _ => True

theorem isFar_unpack {b : BitVec Format.binary64.numBits}
    (h : (unpackExponent b).toNat = 0 ∨ 1075 < (unpackExponent b).toNat) :
    IsFar (UnpackedFloat.unpack Format.binary64 b) := by
  simp only [UnpackedFloat.unpack, Format.exponentBias]
  split
  · split
    · exact trivial
    · exact trivial
  · split
    next hzero =>
      split
      · exact trivial
      · rw [hzero]
        exact Or.inr (by decide)
    next hnonzero =>
      rcases h with h | h
      · exact absurd (BitVec.eq_of_toNat_eq h) hnonzero
      · refine Or.inl ?_
        norm_num
        omega

theorem isFar_unpack_packComponents {sign : Sign} {exponent : BitVec 11} {mantissa : BitVec 52}
    (h : exponent.toNat = 0 ∨ 1075 < exponent.toNat) :
    IsFar (UnpackedFloat.unpack Format.binary64
      (packComponents Format.binary64 sign exponent mantissa)) := by
  apply isFar_unpack
  rwa [unpackExponent_packComponents]

/-- **Packing keeps positive exponents** or makes the number infinite or as small as can be. -/
theorem isFar_unpack_pack {u : UnpackedFloat}
    (h : ∀ s m e hm, u = .finite s m e hm → 0 < e) :
    IsFar (UnpackedFloat.unpack Format.binary64 (UnpackedFloat.pack Format.binary64 u)) := by
  cases u with
  | notANumber => exact isFar_unpack_packComponents (Or.inr (by decide))
  | infinity s => exact isFar_unpack_packComponents (Or.inr (by decide))
  | zero s => exact isFar_unpack_packComponents (Or.inl (by decide))
  | finite s m e hm =>
    have he := h s m e hm rfl
    have hbiased : (e + Format.binary64.exponentBias +
        Format.binary64.mantissaBitsWithoutImplicit).toNat = (e + 1075).toNat := by
      simp only [Format.exponentBias]
      omega
    simp only [UnpackedFloat.pack, hbiased]
    by_cases hlarge : 2 ^ 11 ≤ (e + 1075).toNat + 1
    · rw [if_pos hlarge]
      exact isFar_unpack_packComponents (Or.inr (by decide))
    rw [if_neg hlarge]
    by_cases hfull : m.log2 + 1 = Format.binary64.mantissaBits
    · rw [if_pos hfull]
      apply isFar_unpack_packComponents
      right
      rw [BitVec.toNat_ofNat, Nat.mod_eq_of_lt (by omega)]
      omega
    · rw [if_neg hfull]
      exact isFar_unpack_packComponents (Or.inl (by decide))

theorem exponent_eq_of_dite {sign s : Sign} {x m : Nat} {e e' : Int} {hm : 0 < m}
    (h : (if hx : x = 0 then UnpackedFloat.zero sign
      else .finite sign x e' (Nat.pos_of_ne_zero hx)) = .finite s m e hm) : e' = e := by
  by_cases hx : x = 0
  · rw [dif_pos hx] at h
    cases h
  · rw [dif_neg hx] at h
    injection h

/-- **Rounding raises the exponent** to what the size of the number asks for. -/
theorem targetExponent_le_of_roundWithAccuracy {sign s : Sign} {mantissa m : Nat}
    {exponent e : Int} {accuracy : Accuracy} {hm : 0 < m}
    (h : roundWithAccuracy Format.binary64 sign mantissa exponent accuracy = .finite s m e hm) :
    Format.binary64.targetExponent (totalExponent mantissa exponent) ≤ e := by
  have he := exponent_eq_of_dite h
  omega

theorem isFar_pack_roundWithAccuracy {sign : Sign} {mantissa : Nat} {exponent : Int}
    {accuracy : Accuracy}
    (h : 0 < Format.binary64.targetExponent (totalExponent mantissa exponent)) :
    IsFar (Float.Model.pack
      (roundWithAccuracy Format.binary64 sign mantissa exponent accuracy)).unpack := by
  apply isFar_unpack_pack
  intro s m e hm hround
  exact lt_of_lt_of_le h (targetExponent_le_of_roundWithAccuracy hround)

/-! ### Reading a number from the limit on -/

theorem exactLimit_pos : 0 < exactLimit := by
  decide

/-- The exponent asked for does not depend on the places by which the number is shifted. -/
theorem targetExponent_pos {n k : Nat} (h : exactLimit ≤ n) :
    0 < Format.binary64.targetExponent (totalExponent (n <<< k) (-(k : Int))) := by
  have hpos : 0 < n := lt_of_lt_of_le exactLimit_pos h
  have hlog : 53 ≤ n.log2 := (Nat.le_log2 (Nat.ne_of_gt hpos)).mpr h
  simp only [Format.targetExponent, totalExponent, Format.mantissaBits, Format.minExponent,
    Nat.shiftLeft_eq, log2_mul_two_pow hpos]
  omega

theorem isFar_unpack_ofNat {n : Nat} (h : exactLimit ≤ n) (hword : n < 2 ^ 64) :
    IsFar (ofNat n).toModel.unpack := by
  have hnat : n.toUInt64.toNat = n := by
    rw [UInt64.toNat_ofNat', Nat.mod_eq_of_lt hword]
  have hpos : 0 < n := lt_of_lt_of_le exactLimit_pos h
  have hcompare : compare (n : Int) 0 = .gt := Int.compare_eq_gt.mpr (by omega)
  show IsFar (Float.Model.pack (UnpackedFloat.ofNat Format.binary64 n.toUInt64.toNat)).unpack
  rw [hnat, UnpackedFloat.ofNat, UnpackedFloat.ofInt, UnpackedFloat.normalize, hcompare]
  simp only [Int.toNat_natCast, UnpackedFloat.round, decreaseExponent]
  -- A number that large is not shifted before it is rounded.
  have htarget := targetExponent_pos (k := 0) h
  simp only [Nat.shiftLeft_zero, Int.ofNat_zero, neg_zero] at htarget
  have hshift : (0 - Format.binary64.targetExponent (totalExponent n 0)).toNat = 0 := by omega
  apply isFar_pack_roundWithAccuracy
  rw [hshift]
  simpa using htarget

theorem isFar_unpack_ofScientific {n : Nat} (h : exactLimit ≤ n) :
    IsFar (Float.ofScientific n false 0).toModel.unpack := by
  have hpos : 0 < n := lt_of_lt_of_le exactLimit_pos h
  have hlarge : ¬(n < 2 ^ 53 ∧ 0 ≤ 22) := fun hsmall => absurd hsmall.1 (Nat.not_lt.mpr h)
  rw [Float.ofScientific, dif_neg hlarge]
  show IsFar (Float.Model.pack (UnpackedFloat.ofScientific Format.binary64 n 0)).unpack
  rw [UnpackedFloat.ofScientific, dif_neg (Nat.ne_of_gt hpos), if_neg (by decide),
    if_neg (by simp), if_pos le_rfl]
  simp only [UnpackedFloat.mul]
  apply isFar_pack_roundWithAccuracy
  simp only [Int.toNat_zero, pow_zero, mul_one, add_zero]
  exact targetExponent_pos (k := 53) h

theorem isFar_unpack_infinity : IsFar infinity.toModel.unpack := by
  trivial

/-- **A whole number from the limit on** is read as a double with an exponent that no whole number
below the limit has. -/
theorem isFar_unpack_scaled {n : Nat} (h : exactLimit ≤ n) : IsFar (scaled n 0).toModel.unpack := by
  have hpos : 0 < n := lt_of_lt_of_le exactLimit_pos h
  rw [scaled, if_neg (Nat.ne_of_gt hpos)]
  by_cases hword : n < Nat.pow 2 64
  · rw [if_pos ⟨rfl, hword⟩]
    exact isFar_unpack_ofNat h hword
  · rw [if_neg (fun hsmall => hword hsmall.2)]
    by_cases hhuge : 310 < (decimalLength n : Int) + 0
    · simp only [if_pos hhuge]
      exact isFar_unpack_infinity
    · simp only [if_neg hhuge, if_neg (show ¬(decimalLength n : Int) + 0 < -330 by omega),
        if_pos (le_refl (0 : Int))]
      exact isFar_unpack_ofScientific h

/-- **Such a number is no place**: it is not equal to any whole number below the limit. -/
theorem scaled_beq_ofNat {n p : Nat} (hn : exactLimit ≤ n) (hpos : 0 < p) (hp : p < exactLimit) :
    (scaled n 0 == ofNat p) = false := by
  show ((scaled n 0).toModel.unpack.compare (ofNat p).toModel.unpack == some .eq) = false
  have hfar := isFar_unpack_scaled hn
  rw [unpack_ofNat hpos hp]
  have hshift : fillShift p ≤ 52 := Nat.sub_le _ _
  generalize (scaled n 0).toModel.unpack = u at hfar
  cases u with
  | notANumber => rfl
  | infinity s => cases s <;> rfl
  | zero s => cases s <;> rfl
  | finite s m e hm =>
    cases s with
    | negative => rfl
    | positive =>
      have he : compare e (-(fillShift p : Int)) ≠ .eq := by
        rw [Ne, compare_eq_iff_eq]
        intro heq
        rcases hfar with hfar | hfar <;> omega
      simp only [UnpackedFloat.compare, beq_eq_false_iff_ne, ne_eq, Option.some_inj,
        Ordering.then_eq_eq, not_and]
      exact fun heq => absurd heq he

end ScreenInspector.Number
