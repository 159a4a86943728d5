/-
  ScreenInspector/Proofs/DocumentPartition.lean
  =============================================
  **Every axis has a converse, and five axes share out the document.**

  Some axes climb from node to node and others compare numbers.  What lies inside a node is an
  interval of numbers, and intervals are nested, so climbing from a node leads exactly to those in
  whose interval it lies (`mem_ancestors_iff`).  After that every axis is a condition on two numbers
  and on the ends of their intervals, and reading the condition from the other node gives the
  converse axis (`mem_nodes_converse`).

  A second node is the node itself, or it begins before or after it; one that begins before it is
  around it or ends before it, and one that begins after it is inside it or begins after its end.
  These are the five axes of `axes_partition`.
-/
import ScreenInspector.Proofs.Axes
import Mathlib.Data.List.Nodup

namespace ScreenInspector

open Markup (Document)

namespace Markup.Document

variable {nodes : List Markup.Node} {n m : Nat}

/-! ### Intervals -/

theorem mem_descendants_iff (d : Document) : m ∈ d.descendants n ↔ n < m ∧ m ≤ d.last n := by
  rw [descendants, numbers, List.mem_range'_1]
  omega

/-- A node is inside another iff it is directly inside it or inside one of the nodes there. -/
theorem mem_descendants_iff_parent {p : Nat} (hm : m < (ofNodes nodes).size)
    (hp : (ofNodes nodes).parent? m = some p) :
    m ∈ (ofNodes nodes).descendants n ↔ n = p ∨ p ∈ (ofNodes nodes).descendants n := by
  have hlt := lt_of_parent? nodes hp
  obtain ⟨q, hq, -, hlast⟩ := exists_parent nodes (Nat.zero_lt_of_lt hlt) hm
  obtain rfl : p = q := Option.some.inj (hp.symm.trans hq)
  simp only [mem_descendants_iff]
  constructor
  · rintro ⟨hnm, hle⟩
    obtain ⟨-, q, hq, hnq⟩ := nested nodes hm hnm hle
    obtain rfl : p = q := Option.some.inj (hp.symm.trans hq)
    omega
  · rintro (rfl | ⟨hnp, hle⟩)
    · exact ⟨hlt, hlast⟩
    · have hends := (nested nodes (Nat.lt_trans hlt hm) hnp hle).1
      omega

/-- **Climbing from a node leads to those that it lies inside**, if there is fuel for every number
below it. -/
theorem mem_ancestorsFrom_iff {fuel : Nat} (hfuel : m ≤ fuel) (hm : m < (ofNodes nodes).size) :
    n ∈ (ofNodes nodes).ancestorsFrom fuel m ↔ m ∈ (ofNodes nodes).descendants n := by
  have hroot : m = 0 → ¬ m ∈ (ofNodes nodes).descendants n := by
    rintro rfl h
    exact Nat.not_lt_zero n ((mem_descendants_iff _).mp h).1
  induction fuel generalizing m with
  | zero => simp [ancestorsFrom, hroot (Nat.le_zero.mp hfuel)]
  | succ fuel ih =>
    rw [ancestorsFrom]
    split
    next p hp =>
      have hlt := lt_of_parent? nodes hp
      have hclimb : n ∈ (ofNodes nodes).ancestorsFrom fuel p ↔
          p ∈ (ofNodes nodes).descendants n := by
        apply ih (by omega) (Nat.lt_trans hlt hm)
        rintro rfl h
        exact Nat.not_lt_zero n ((mem_descendants_iff _).mp h).1
      rw [List.mem_cons, hclimb, mem_descendants_iff_parent hm hp]
    next hnone =>
      have hzero : m = 0 := by
        by_contra hpos
        obtain ⟨p, hp, -⟩ := exists_parent nodes (Nat.pos_of_ne_zero hpos) hm
        rw [hnone] at hp
        cases hp
      simp [hroot hzero]

theorem mem_ancestors_iff (hm : m < (ofNodes nodes).size) :
    n ∈ (ofNodes nodes).ancestors m ↔ m ∈ (ofNodes nodes).descendants n :=
  mem_ancestorsFrom_iff (Nat.le_of_lt hm) hm

/-- The nodes directly inside a node are those that it holds. -/
theorem mem_children_iff :
    m ∈ (ofNodes nodes).children n ↔ (ofNodes nodes).parent? m = some n := by
  rw [children, List.mem_filter, beq_iff_eq, and_iff_right_iff_imp]
  intro hp
  have hlt := lt_of_parent? nodes hp
  have hm : m < (ofNodes nodes).size := by
    by_contra hout
    have hnone : (ofNodes nodes).entries[m]? = none :=
      Array.getElem?_eq_none (Nat.le_of_not_lt hout)
    simp [parent?, hnone] at hp
  exact (mem_descendants_iff_parent hm hp).mpr (Or.inl rfl)

/-- Siblings are held by the same node, or are the same node. -/
theorem mem_siblings_iff : m ∈ (ofNodes nodes).siblings n ↔
    m = n ∨ ∃ p, (ofNodes nodes).parent? n = some p ∧ (ofNodes nodes).parent? m = some p := by
  rw [siblings]
  cases hp : (ofNodes nodes).parent? n with
  | none => simp
  | some p =>
    simp only [mem_children_iff, Option.some.injEq, exists_eq_left']
    constructor
    · exact Or.inr
    · rintro (rfl | h)
      · exact hp
      · exact h

theorem mem_siblings_comm : m ∈ (ofNodes nodes).siblings n ↔ n ∈ (ofNodes nodes).siblings m := by
  rw [mem_siblings_iff, mem_siblings_iff, eq_comm]
  exact or_congr_right (exists_congr fun p => and_comm)

theorem mem_following_iff (d : Document) : m ∈ d.following n ↔ m < d.size ∧ d.last n < m := by
  rw [following, List.mem_filter, List.mem_range, decide_eq_true_eq]

theorem mem_preceding_iff (hn : n < (ofNodes nodes).size) :
    m ∈ (ofNodes nodes).preceding n ↔ (ofNodes nodes).last m < n := by
  have hlast := le_last nodes m
  simp only [preceding, List.mem_reverse, List.mem_filter, List.mem_range, Bool.not_eq_true',
    List.contains_eq_mem, decide_eq_false_iff_not, mem_ancestors_iff hn, mem_descendants_iff]
  omega

end Markup.Document

namespace Expression

variable {nodes : List Markup.Node} {n m : Nat}

/-! ### Converse axes -/

/-- The axis that leads back. -/
def Axis.converse : Axis → Axis
  | .child => .parent
  | .descendant => .ancestor
  | .descendantOrSelf => .ancestorOrSelf
  | .self => .self
  | .parent => .child
  | .ancestor => .descendant
  | .ancestorOrSelf => .descendantOrSelf
  | .followingSibling => .precedingSibling
  | .precedingSibling => .followingSibling
  | .following => .preceding
  | .preceding => .following
  | .attribute => .attribute

@[simp] theorem Axis.converse_converse (axis : Axis) : axis.converse.converse = axis := by
  cases axis <;> rfl

/-- The converse of an axis that leads forward, or to the node itself, leads back. -/
theorem mem_nodes_converse_of_forward {axis : Axis} (hforward : axis.isReverse = false)
    (hm : m < (Document.ofNodes nodes).size) :
    m ∈ axis.nodes (Document.ofNodes nodes) n ↔
      n ∈ axis.converse.nodes (Document.ofNodes nodes) m := by
  cases axis with
  | child => simp only [Axis.nodes, Axis.converse, Document.mem_children_iff, Option.mem_toList]
  | descendant => exact (Document.mem_ancestors_iff hm).symm
  | descendantOrSelf =>
    simp only [Axis.nodes, Axis.converse, List.mem_cons, Document.mem_ancestors_iff hm]
    rw [eq_comm]
  | self =>
    simp only [Axis.nodes, Axis.converse, List.mem_singleton]
    exact eq_comm
  | followingSibling =>
    simp only [Axis.nodes, Axis.converse, List.mem_reverse, List.mem_filter, decide_eq_true_eq,
      Document.mem_siblings_comm (m := m)]
  | following =>
    simp only [Axis.nodes, Axis.converse, Document.mem_following_iff,
      Document.mem_preceding_iff hm, hm, true_and]
  | parent | ancestor | ancestorOrSelf | precedingSibling | preceding => cases hforward
  | _ => simp [Axis.nodes, Axis.converse]

/-- **Axes are converse in pairs**: one leads from a first node to a second iff the other leads
back. -/
theorem mem_nodes_converse (hn : n < (Document.ofNodes nodes).size)
    (hm : m < (Document.ofNodes nodes).size) (axis : Axis) :
    m ∈ axis.nodes (Document.ofNodes nodes) n ↔
      n ∈ axis.converse.nodes (Document.ofNodes nodes) m := by
  cases hreverse : axis.isReverse with
  | false => exact mem_nodes_converse_of_forward hreverse hm
  | true =>
    have hforward : axis.converse.isReverse = false := by
      cases axis <;> first | rfl | cases hreverse
    rw [mem_nodes_converse_of_forward hforward hn, Axis.converse_converse]

/-! ### Shares of a document -/

/-- The axes that share out a document. -/
def partitionAxes : List Axis :=
  [.self, .ancestor, .descendant, .preceding, .following]

theorem pairwise_lt_nodes (nodes : List Markup.Node) (n : Nat) {axis : Axis}
    (h : axis.isReverse = false) : (axis.nodes (Document.ofNodes nodes) n).Pairwise (· < ·) := by
  refine (pairwise_nodes nodes n axis).imp fun {m k} hnearer => ?_
  rwa [Axis.Nearer, h] at hnearer

theorem pairwise_gt_nodes (nodes : List Markup.Node) (n : Nat) {axis : Axis}
    (h : axis.isReverse = true) : (axis.nodes (Document.ofNodes nodes) n).Pairwise (· > ·) := by
  refine (pairwise_nodes nodes n axis).imp fun {m k} hnearer => ?_
  rwa [Axis.Nearer, h] at hnearer

theorem nodup_nodes (nodes : List Markup.Node) (n : Nat) (axis : Axis) :
    (axis.nodes (Document.ofNodes nodes) n).Nodup := by
  cases hreverse : axis.isReverse with
  | false => exact (pairwise_lt_nodes nodes n hreverse).imp Nat.ne_of_lt
  | true => exact (pairwise_gt_nodes nodes n hreverse).imp Nat.ne_of_gt

/-- **Two of the five axes have no node in common.** -/
theorem disjoint_partitionAxes (hn : n < (Document.ofNodes nodes).size) :
    partitionAxes.Pairwise fun a b =>
      (a.nodes (Document.ofNodes nodes) n).Disjoint (b.nodes (Document.ofNodes nodes) n) := by
  have hlast := Document.le_last nodes
  have hends := hlast n
  simp only [partitionAxes, List.pairwise_cons, List.mem_cons, List.not_mem_nil, or_false,
    forall_eq_or_imp, forall_eq, false_implies, implies_true, List.Pairwise.nil, and_true]
  simp only [List.Disjoint, Axis.nodes, List.mem_singleton, Document.mem_ancestors_iff hn,
    Document.mem_descendants_iff, Document.mem_preceding_iff hn, Document.mem_following_iff]
  refine ⟨⟨?_, ?_, ?_, ?_⟩, ⟨?_, ?_, ?_⟩, ⟨?_, ?_⟩, ?_⟩ <;>
  · intro m hfirst hsecond
    have hm := hlast m
    omega

/-- **Every node is on one of the five axes.** -/
theorem mem_partitionAxes_iff (hn : n < (Document.ofNodes nodes).size) :
    (∃ axis ∈ partitionAxes, m ∈ axis.nodes (Document.ofNodes nodes) n) ↔
      m < (Document.ofNodes nodes).size := by
  constructor
  · rintro ⟨axis, -, hm⟩
    exact (isClosed_size nodes).axis axis n hn m hm
  · intro hm
    simp only [partitionAxes, List.mem_cons, List.not_mem_nil, or_false, exists_eq_or_imp,
      exists_eq_left, Axis.nodes, Document.mem_ancestors_iff hn, Document.mem_descendants_iff,
      Document.mem_preceding_iff hn, Document.mem_following_iff]
    omega

/-! ### The main result -/

/-- **Axes share out the document**, from every node of every document.  The node itself, the nodes
around it and inside it, those before it and those after it are five lists without common nodes and
without repetitions, which together hold every node of the document once.  Axes that lead forward
list their nodes in document order, those that lead back in the reverse order, and an axis leads to
a node iff its converse leads from there. -/
theorem axes_partition (hn : n < (Document.ofNodes nodes).size) :
    let d := Document.ofNodes nodes
    (partitionAxes.Pairwise fun a b => (a.nodes d n).Disjoint (b.nodes d n)) ∧
    (∀ axis ∈ partitionAxes, (axis.nodes d n).Nodup) ∧
    (partitionAxes.flatMap (Axis.nodes d n)).Perm (List.range d.size) ∧
    (∀ axis ∈ [Axis.child, .descendant, .descendantOrSelf, .following, .followingSibling],
      (axis.nodes d n).Pairwise (· < ·)) ∧
    (∀ axis ∈ [Axis.parent, .ancestor, .ancestorOrSelf, .preceding, .precedingSibling],
      (axis.nodes d n).Pairwise (· > ·)) ∧
    ∀ (axis : Axis) (m : Nat), m < d.size → (m ∈ axis.nodes d n ↔ n ∈ axis.converse.nodes d m) := by
  intro d
  have hdisjoint := disjoint_partitionAxes hn
  refine ⟨hdisjoint, fun axis _ => nodup_nodes nodes n axis, ?_, ?_, ?_, ?_⟩
  · have hnodup : (partitionAxes.flatMap (Axis.nodes d n)).Nodup :=
      List.nodup_flatMap.mpr ⟨fun axis _ => nodup_nodes nodes n axis, hdisjoint⟩
    apply (List.perm_ext_iff_of_nodup hnodup List.nodup_range).mpr
    intro m
    rw [List.mem_flatMap, List.mem_range]
    exact mem_partitionAxes_iff hn
  · intro axis hmem
    have hforward : ∀ axis ∈ [Axis.child, .descendant, .descendantOrSelf, .following,
      .followingSibling], axis.isReverse = false := by decide
    exact pairwise_lt_nodes nodes n (hforward axis hmem)
  · intro axis hmem
    have hreverse : ∀ axis ∈ [Axis.parent, .ancestor, .ancestorOrSelf, .preceding,
      .precedingSibling], axis.isReverse = true := by decide
    exact pairwise_gt_nodes nodes n (hreverse axis hmem)
  · exact fun axis m hm => mem_nodes_converse hn hm axis

/-- A page with texts beside and inside a list. -/
def textPage : List Markup.Node :=
  [.element "Page" [] [.text "above",
    .element "List" [] [.element "Item" [] [.text "one"], .element "Item" [] []], .text "below"]]

/-- The first item of the list shares out the page. -/
theorem axes_partition_textPage :
    4 < (Document.ofNodes textPage).size ∧
    Axis.nodes (Document.ofNodes textPage) 4 .ancestor = [3, 1, 0] ∧
    Axis.nodes (Document.ofNodes textPage) 4 .preceding = [2] ∧
    Axis.nodes (Document.ofNodes textPage) 4 .following = [6, 7] ∧
    (partitionAxes.flatMap (Axis.nodes (Document.ofNodes textPage) 4)).Perm (List.range 8) ∧
    (2 ∈ Axis.nodes (Document.ofNodes textPage) 4 .preceding ↔
      4 ∈ Axis.nodes (Document.ofNodes textPage) 2 .following) := by
  have hn : 4 < (Document.ofNodes textPage).size := by decide
  obtain ⟨-, -, hshares, -, -, hconverse⟩ := axes_partition hn
  exact ⟨hn, rfl, rfl, rfl, hshares, hconverse .preceding 2 (by decide)⟩

end Expression

end ScreenInspector
