/-
  ScreenInspector/Proofs/UnitScale.lean
  =====================================
  **The identity scale changes no point.**

  A coordinate is divided by the factor of the scale, so this is about dividing doubles by one.  The
  significand of one is `2 ^ 52`.  The dividend is shifted by 52 or 53 places, so that the quotient
  comes out whole: it is the significand of the dividend, or twice that (`divCore_one`).  Rounding
  shifts it back (`roundWithAccuracy_shifted`), and packing what was unpacked gives the double again.
  Zeros, infinities and NaN are their own quotients.
-/
import ScreenInspector.Proofs.WholeNumbers
import ScreenInspector.Screen.Geometry

namespace ScreenInspector

namespace Number

open Float.Model Float.Model.UnpackedFloat

/-! ### Significands of doubles -/

/-- The significand and the exponent of a double: it is full, or the exponent is the least. -/
structure IsDoublePart (m : Nat) (e : Int) : Prop where
  lt : m < 2 ^ 53
  least_le : -1074 ≤ e
  full_or_least : 2 ^ 52 ≤ m ∨ e = -1074

theorem isDoublePart_of_unpack {b : BitVec 64} {s : Sign} {m : Nat} {e : Int} {hm : 0 < m}
    (h : UnpackedFloat.unpack Format.binary64 b = .finite s m e hm) : IsDoublePart m e := by
  have hmantissa : (@unpackMantissa Format.binary64 b).toNat < 2 ^ 52 :=
    (@unpackMantissa Format.binary64 b).isLt
  rw [UnpackedFloat.unpack] at h
  split at h
  · split at h
    · cases h
    · cases h
  next hnotFull =>
    split at h
    next hzero =>
      split at h
      · cases h
      · obtain ⟨-, rfl, rfl⟩ := UnpackedFloat.finite.inj h
        rw [hzero]
        exact ⟨by omega, by decide, Or.inr (by decide)⟩
    next hnotZero =>
      obtain ⟨-, rfl, rfl⟩ := UnpackedFloat.finite.inj h
      have hexponent : (@unpackExponent Format.binary64 b).toNat ≠ 0 :=
        fun hzero => hnotZero (BitVec.eq_of_toNat_eq hzero)
      have himplicit : (1#1 ++ @unpackMantissa Format.binary64 b).toNat =
          2 ^ 52 + (@unpackMantissa Format.binary64 b).toNat := toNat_implicitBit _
      rw [himplicit]
      refine ⟨by omega, ?_, Or.inl (Nat.le_add_right _ _)⟩
      simp only [Format.exponentBias]
      omega

/-- A significand is not shifted for its exponent. -/
theorem IsDoublePart.targetExponent {m : Nat} {e : Int} (h : IsDoublePart m e) (hm : 0 < m) :
    Format.binary64.targetExponent (totalExponent m e) = e := by
  have hlt : m.log2 < 53 := (Nat.log2_lt (by omega)).mpr h.lt
  have hfull : 52 ≤ m.log2 ∨ e = -1074 := by
    rcases h.full_or_least with hfull | hleast
    · exact Or.inl ((Nat.le_log2 (by omega)).mpr hfull)
    · exact Or.inr hleast
  have hleast := h.least_le
  simp only [Format.targetExponent, totalExponent, Format.mantissaBits, Format.minExponent]
  omega

/-! ### Rounding -/

/-- Zeros at the end of a significand are shifted out. -/
theorem shiftRight_shifted (m k : Nat) :
    (⟨m * 2 ^ k, false, false⟩ : ExtendedMantissa) >>> k = ⟨m, false, false⟩ := by
  induction k generalizing m with
  | zero => simp [HShiftRight.hShiftRight, Nat.repeat]
  | succ k ih =>
    have hlast : (⟨m * 2 ^ (k + 1), false, false⟩ : ExtendedMantissa) >>> (k + 1) =
        ((⟨m * 2 ^ (k + 1), false, false⟩ : ExtendedMantissa) >>> k).shiftRightOne := rfl
    have htwice : m * 2 ^ (k + 1) = 2 * m * 2 ^ k := by ring
    rw [hlast, htwice, ih]
    simp [ExtendedMantissa.shiftRightOne]

theorem roundWithAccuracy_shifted {m : Nat} {e : Int} (h : IsDoublePart m e) (hm : 0 < m)
    (s : Sign) (k : Nat) :
    roundWithAccuracy Format.binary64 s (m * 2 ^ k) (e - k) .exact = .finite s m e hm := by
  have htotal : totalExponent (m * 2 ^ k) (e - k) = totalExponent m e := by
    rw [totalExponent, totalExponent, log2_mul_two_pow hm]
    omega
  have hback : (e - (e - (k : Int))).toNat = k := by omega
  have hfirst : shiftToTargetExponent Format.binary64 (m * 2 ^ k) (e - k) .exact =
      (⟨m, false, false⟩, e) := by
    simp only [shiftToTargetExponent, htotal, h.targetExponent hm, shiftToExponent, hback,
      ExtendedMantissa.ofMantissaAndAccuracy, shiftRight_shifted, sub_add_cancel]
  have hsecond : shiftToTargetExponent Format.binary64 m e .exact = (⟨m, false, false⟩, e) := by
    simp only [shiftToTargetExponent, h.targetExponent hm, shiftToExponent, sub_self,
      ExtendedMantissa.ofMantissaAndAccuracy]
    simp [HShiftRight.hShiftRight, Nat.repeat]
  have hrounded : (⟨m, false, false⟩ : ExtendedMantissa).roundedMantissa = m := rfl
  simp only [roundWithAccuracy, hfirst, hrounded, hsecond, dif_neg (Nat.ne_of_gt hm)]

/-! ### Dividing by one -/

theorem unpack_one : (1.0 : Float).toModel.unpack = .finite .positive (2 ^ 52) (-52) (by decide) :=
  rfl

/-- The quotient of a significand by that of one is shifted by at most one place. -/
theorem divCore_one {m : Nat} {e : Int} (h : IsDoublePart m e) (hm : 0 < m) :
    ∃ k : Nat, divCore Format.binary64 m e (2 ^ 52) (-52) = (m * 2 ^ k, e - k, .exact) := by
  have htarget : ∃ k : Nat, k ≤ 1 ∧ min (e - -52) (Format.binary64.targetExponent
      (totalExponent m e - totalExponent (2 ^ 52) (-52))) = e - k := by
    have htotal := h.targetExponent hm
    have hone : totalExponent (2 ^ 52) (-52) = 1 := by
      rw [totalExponent, Nat.log2_two_pow]
      rfl
    rw [hone]
    simp only [Format.targetExponent, Format.mantissaBits, Format.minExponent] at htotal ⊢
    by_cases hleast : e = -1074
    · exact ⟨0, by omega, by omega⟩
    · have hbound := h.least_le
      exact ⟨1, by omega, by omega⟩
  obtain ⟨k, hk, htarget⟩ := htarget
  refine ⟨k, ?_⟩
  have hshift : (e - -52 - (e - (k : Int))).toNat = k + 52 := by omega
  have hquotient : m * 2 ^ (k + 52) = m * 2 ^ k * 2 ^ 52 := by rw [pow_add, mul_assoc]
  simp only [divCore, htarget, hshift, Nat.shiftLeft_eq, hquotient]
  rw [Nat.mul_div_cancel _ (by positivity), Nat.mul_mod_left]
  rfl

theorem div_positive (s : Sign) : s / Sign.positive = s := by
  cases s with
  | positive => rfl
  | negative => rfl

theorem unpack_div_one (b : BitVec 64) :
    UnpackedFloat.div Format.binary64 (UnpackedFloat.unpack Format.binary64 b)
        (.finite .positive (2 ^ 52) (-52) (by decide)) = UnpackedFloat.unpack Format.binary64 b := by
  cases hu : UnpackedFloat.unpack Format.binary64 b with
  | notANumber => rfl
  | infinity s => exact congrArg _ (div_positive s)
  | zero s => exact congrArg _ (div_positive s)
  | finite s m e hm =>
    have hpart := isDoublePart_of_unpack hu
    obtain ⟨k, hquotient⟩ := divCore_one hpart hm
    simp only [UnpackedFloat.div, hquotient, roundWithAccuracy_shifted hpart hm, div_positive]

/-- **Dividing by one changes no double.** -/
theorem div_one (x : Float) : x / 1.0 = x := by
  obtain ⟨⟨bits, valid⟩⟩ := x
  have hquotient := unpack_div_one bits.toBitVec
  have hpacked := pack_unpack_of_valid valid
  show Float.ofModel (Float.Model.pack (UnpackedFloat.div Format.binary64
    (UnpackedFloat.unpack Format.binary64 bits.toBitVec) (1.0 : Float).toModel.unpack)) = _
  rw [unpack_one, hquotient]
  simp only [Float.Model.pack, hpacked]

end Number

/-- **The identity scale changes no point.** -/
theorem Scale.toDevice_identity (p : Point) : identity.toDevice p = p := by
  obtain ⟨x, y⟩ := p
  simp only [toDevice, identity, Number.div_one]

end ScreenInspector
