/-
  ScreenInspector/Proofs/NodeLists.lean
  =====================================
  **Lists of nodes in document order.**

  `inDocumentOrder` sorts and drops repetitions, so what it gives is strictly increasing
  (`pairwise_inDocumentOrder`) and has the members it was given (`mem_inDocumentOrder`).  There is
  only one such list for given members: a list that is strictly increasing is left as it is, and
  whatever order nodes were found in, they come out as any other way of listing them in order.
-/
import ScreenInspector.Expression.Evaluation
import Mathlib.Data.List.Sort

namespace ScreenInspector.Expression

/-- Members that do not decrease increase strictly once repetitions are gone, and none is lost. -/
theorem withoutRepeats_sorted {ids : List Nat} (h : ids.Pairwise (· ≤ ·)) :
    (withoutRepeats ids).Pairwise (· < ·) ∧ ∀ n, n ∈ withoutRepeats ids ↔ n ∈ ids := by
  fun_induction withoutRepeats ids with
  | case1 b rest ih =>
    obtain ⟨hpairs, hmem⟩ := ih (List.pairwise_cons.mp h).2
    refine ⟨hpairs, fun n => ?_⟩
    rw [hmem n]
    simp
  | case2 a b rest hne ih =>
    obtain ⟨hfirst, hrest⟩ := List.pairwise_cons.mp h
    obtain ⟨hpairs, hmem⟩ := ih hrest
    have hbound : ∀ n ∈ b :: rest, b ≤ n := by
      intro n hn
      rcases List.mem_cons.mp hn with rfl | hn
      · exact Nat.le_refl n
      · exact (List.pairwise_cons.mp hrest).1 n hn
    constructor
    · apply List.pairwise_cons.mpr
      refine ⟨fun n hn => ?_, hpairs⟩
      have hb := hbound n ((hmem n).mp hn)
      have ha := hfirst b List.mem_cons_self
      omega
    · intro n
      rw [List.mem_cons, hmem n]
      exact List.mem_cons.symm
  | case3 short hshort =>
    refine ⟨?_, fun n => Iff.rfl⟩
    match short, hshort with
    | [], _ => exact List.Pairwise.nil
    | [a], _ => exact List.pairwise_singleton _ a
    | a :: b :: rest, hshort => exact (hshort a b rest rfl).elim

theorem pairwise_le_mergeSort (ids : List Nat) :
    (ids.mergeSort fun a b => decide (a ≤ b)).Pairwise (· ≤ ·) := by
  have htrans : ∀ a b c : Nat, decide (a ≤ b) = true → decide (b ≤ c) = true →
      decide (a ≤ c) = true := by
    intro a b c hab hbc
    exact decide_eq_true (Nat.le_trans (of_decide_eq_true hab) (of_decide_eq_true hbc))
  have htotal : ∀ a b : Nat, (decide (a ≤ b) || decide (b ≤ a)) = true := by
    intro a b
    rw [Bool.or_eq_true, decide_eq_true_iff, decide_eq_true_iff]
    exact Nat.le_total a b
  exact (List.pairwise_mergeSort htrans htotal ids).imp fun hab => of_decide_eq_true hab

theorem pairwise_inDocumentOrder (ids : List Nat) : (inDocumentOrder ids).Pairwise (· < ·) :=
  (withoutRepeats_sorted (pairwise_le_mergeSort ids)).1

@[simp] theorem mem_inDocumentOrder {ids : List Nat} {n : Nat} :
    n ∈ inDocumentOrder ids ↔ n ∈ ids := by
  rw [inDocumentOrder, (withoutRepeats_sorted (pairwise_le_mergeSort ids)).2 n, List.mem_mergeSort]

/-- The nodes in document order are any strictly increasing list of the same nodes. -/
theorem inDocumentOrder_eq {ids sorted : List Nat} (hsorted : sorted.Pairwise (· < ·))
    (hmem : ∀ n, n ∈ ids ↔ n ∈ sorted) : inDocumentOrder ids = sorted := by
  apply (pairwise_inDocumentOrder ids).eq_of_mem_iff hsorted
  intro n
  rw [mem_inDocumentOrder, hmem n]

theorem inDocumentOrder_of_pairwise {ids : List Nat} (h : ids.Pairwise (· < ·)) :
    inDocumentOrder ids = ids :=
  inDocumentOrder_eq h fun _ => Iff.rfl

/-- Lists with the same members are the same in document order. -/
theorem inDocumentOrder_congr {ids more : List Nat} (h : ∀ n, n ∈ ids ↔ n ∈ more) :
    inDocumentOrder ids = inDocumentOrder more := by
  apply inDocumentOrder_eq (pairwise_inDocumentOrder more)
  intro n
  rw [mem_inDocumentOrder, h]

/-- Numbers in increasing order are part of all numbers below a bound. -/
theorem sublist_range {ids : List Nat} {size : Nat} (hpairs : ids.Pairwise (· < ·))
    (hsize : ∀ n ∈ ids, n < size) : ids.Sublist (List.range size) := by
  have hfilter : (List.range size).filter (fun n => decide (n ∈ ids)) = ids := by
    apply (List.pairwise_lt_range.filter _).eq_of_mem_iff hpairs
    intro n
    rw [List.mem_filter, List.mem_range, decide_eq_true_iff]
    exact ⟨fun h => h.2, fun h => ⟨hsize n h, h⟩⟩
  rw [← hfilter]
  exact List.filter_sublist

end ScreenInspector.Expression
