/-
  ScreenInspector/Proofs/NumberOrder.lean
  =======================================
  **Comparing binary64 numbers.**

  An unpacked number is compared by its sign and kind first, then by its exponent, then by its
  mantissa; for negative numbers the last two the other way round.  So every number that is not NaN
  has a `rank` in a lexicographic order, and one number is less than another iff its rank is
  (`lt_iff_rank_lt`).  Numbers with different bits may have one rank, as the two zeros do: the
  order of the numbers is a strict weak order.

  NaN stands in no order to anything.  Apart from that a comparison the other way round gives the
  opposite order (`map_swap_compare`), so equality of numbers is symmetric (`beq_comm`).
-/
import ScreenInspector.Number.Binary64
import Mathlib

namespace ScreenInspector.Number

open Float.Model (UnpackedFloat)

/-- The place of an unpacked number among all others: its kind and sign, then exponent and
mantissa.  NaN has no place and gets that of zero. -/
def rank : UnpackedFloat → ℤ ×ₗ ℤ ×ₗ ℤ
  | .infinity .negative => toLex (-2, toLex (0, 0))
  | .finite .negative mantissa exponent _ => toLex (-1, toLex (-exponent, -(mantissa : ℤ)))
  | .zero _ => toLex (0, toLex (0, 0))
  | .notANumber => toLex (0, toLex (0, 0))
  | .finite .positive mantissa exponent _ => toLex (1, toLex (exponent, (mantissa : ℤ)))
  | .infinity .positive => toLex (2, toLex (0, 0))

/-- The place of a number. -/
def rankOf (a : Float) : ℤ ×ₗ ℤ ×ₗ ℤ :=
  rank a.toModel.unpack

theorem compare_then_eq_lt {e e' : ℤ} {m m' : ℕ} :
    (compare e e').then (compare m m') = .lt ↔ e < e' ∨ e = e' ∧ m < m' := by
  rw [Ordering.then_eq_lt, compare_lt_iff_lt, compare_eq_iff_eq, compare_lt_iff_lt]

theorem compare_then_eq_gt {e e' : ℤ} {m m' : ℕ} :
    (compare e e').then (compare m m') = .gt ↔ e' < e ∨ e = e' ∧ m' < m := by
  rw [Ordering.then_eq_gt, compare_gt_iff_gt, compare_eq_iff_eq, compare_gt_iff_gt]

/-- **The comparison of unpacked numbers is that of their ranks.** -/
theorem compare_eq_lt_iff {x y : UnpackedFloat} (hx : x ≠ .notANumber) (hy : y ≠ .notANumber) :
    x.compare y = some .lt ↔ rank x < rank y := by
  cases x with
  | notANumber => exact absurd rfl hx
  | infinity s =>
    cases y with
    | notANumber => exact absurd rfl hy
    | infinity s' => cases s <;> cases s' <;> decide
    | zero s' => cases s <;> simp [UnpackedFloat.compare, rank, Prod.Lex.toLex_lt_toLex]
    | finite s' m' e' hm' =>
      cases s <;> cases s' <;> simp [UnpackedFloat.compare, rank, Prod.Lex.toLex_lt_toLex]
  | zero s =>
    cases y with
    | notANumber => exact absurd rfl hy
    | infinity s' => cases s' <;> simp [UnpackedFloat.compare, rank, Prod.Lex.toLex_lt_toLex]
    | zero s' => simp [UnpackedFloat.compare, rank]
    | finite s' m' e' hm' =>
      cases s' <;> simp [UnpackedFloat.compare, rank, Prod.Lex.toLex_lt_toLex]
  | finite s m e hm =>
    cases y with
    | notANumber => exact absurd rfl hy
    | infinity s' =>
      cases s <;> cases s' <;> simp [UnpackedFloat.compare, rank, Prod.Lex.toLex_lt_toLex]
    | zero s' => cases s <;> simp [UnpackedFloat.compare, rank, Prod.Lex.toLex_lt_toLex]
    | finite s' m' e' hm' =>
      cases s <;> cases s' <;>
        simp [UnpackedFloat.compare, rank, Prod.Lex.toLex_lt_toLex, compare_then_eq_lt,
          compare_then_eq_gt]

theorem unpack_ne_notANumber {a : Float} (h : a.isNaN = false) :
    a.toModel.unpack ≠ .notANumber := by
  intro hnan
  have hisNaN : a.isNaN = a.toModel.unpack.isNaN := rfl
  rw [hisNaN, hnan] at h
  exact absurd h (by decide)

/-- **One number is less than another iff its rank is.** -/
theorem lt_iff_rank_lt {a b : Float} (ha : a.isNaN = false) (hb : b.isNaN = false) :
    a < b ↔ rankOf a < rankOf b := by
  have hcompare : a < b ↔ a.toModel.unpack.compare b.toModel.unpack = some .lt := by
    show a.lt b = true ↔ _
    rw [Float.lt, decide_eq_true_iff]
    exact beq_iff_eq
  rw [hcompare, compare_eq_lt_iff (unpack_ne_notANumber ha) (unpack_ne_notANumber hb)]
  rfl

/-! ### The other way round -/

theorem compare_then_swap (e e' : ℤ) (m m' : ℕ) :
    ((compare e e').then (compare m m')).swap = (compare e' e).then (compare m' m) := by
  rw [Ordering.swap_then, ← Std.OrientedCmp.eq_swap, ← Std.OrientedCmp.eq_swap]

/-- A comparison the other way round gives the opposite order, if there is one. -/
theorem map_swap_compare (x y : UnpackedFloat) :
    (x.compare y).map Ordering.swap = y.compare x := by
  cases x with
  | notANumber => cases y <;> rfl
  | infinity s =>
    cases y with
    | notANumber => cases s <;> rfl
    | infinity s' => cases s <;> cases s' <;> rfl
    | zero s' => cases s <;> rfl
    | finite s' m' e' hm' => cases s <;> cases s' <;> rfl
  | zero s =>
    cases y with
    | notANumber => rfl
    | infinity s' => cases s' <;> rfl
    | zero s' => rfl
    | finite s' m' e' hm' => cases s' <;> rfl
  | finite s m e hm =>
    cases y with
    | notANumber => cases s <;> rfl
    | infinity s' => cases s <;> cases s' <;> rfl
    | zero s' => cases s <;> rfl
    | finite s' m' e' hm' =>
      cases s <;> cases s' <;> simp [UnpackedFloat.compare, ← compare_then_swap e e' m m']

/-- **Equality of numbers is symmetric**, though NaN is not equal to itself. -/
theorem beq_comm (a b : Float) : (a == b) = (b == a) := by
  show (a.toModel.unpack.compare b.toModel.unpack == some .eq) =
    (b.toModel.unpack.compare a.toModel.unpack == some .eq)
  rw [← map_swap_compare a.toModel.unpack]
  cases a.toModel.unpack.compare b.toModel.unpack with
  | none => rfl
  | some order => cases order <;> rfl

end ScreenInspector.Number
