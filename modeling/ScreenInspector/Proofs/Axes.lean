/-
  ScreenInspector/Proofs/Axes.lean
  ================================
  **Where axes lead, and in which order.**

  In a numbered document the node around a node has a smaller number, and what lies inside a node
  has the numbers up to its last one.  So every axis leads from nodes to nodes (`isClosed_size`),
  and it lists them nearest first (`pairwise_nodes`): those that come later in increasing order,
  and those that come earlier or lie around the node in decreasing order.
-/
import ScreenInspector.Expression.Axis
import ScreenInspector.Proofs.DocumentStructure

namespace ScreenInspector.Expression

open ScreenInspector.Markup (Document)

/-- Some nodes of a document, the document itself among them, that no axis leads out of. -/
structure IsClosed (d : Document) (inside : Nat → Prop) : Prop where
  document : inside 0
  axis : ∀ axis n, inside n → ∀ m ∈ Axis.nodes d n axis, inside m

theorem isClosed_true (d : Document) : IsClosed d fun _ => True :=
  ⟨trivial, fun _ _ _ _ _ => trivial⟩

/-- Whether an axis leads to nodes that begin before the one it leads from. -/
def Axis.isReverse : Axis → Bool
  | .parent | .ancestor | .ancestorOrSelf | .precedingSibling | .preceding => true
  | _ => false

/-- A node on an axis comes before another in order of proximity. -/
def Axis.Nearer (axis : Axis) (m k : Nat) : Prop :=
  if axis.isReverse then k < m else m < k

variable {nodes : List Markup.Node} {n m : Nat}

/-! ### Nodes around a node -/

theorem lt_of_mem_ancestorsFrom {fuel : Nat}
    (h : m ∈ (Document.ofNodes nodes).ancestorsFrom fuel n) : m < n := by
  induction fuel generalizing n with
  | zero => simp [Document.ancestorsFrom] at h
  | succ fuel ih =>
    rw [Document.ancestorsFrom] at h
    split at h
    next p hp =>
      have hlt := Document.lt_of_parent? nodes hp
      rcases List.mem_cons.mp h with rfl | h
      · exact hlt
      · exact Nat.lt_trans (ih h) hlt
    next => simp at h

theorem pairwise_ancestorsFrom (nodes : List Markup.Node) (fuel n : Nat) :
    ((Document.ofNodes nodes).ancestorsFrom fuel n).Pairwise (· > ·) := by
  induction fuel generalizing n with
  | zero => exact List.Pairwise.nil
  | succ fuel ih =>
    rw [Document.ancestorsFrom]
    split
    next p hp => exact List.pairwise_cons.mpr ⟨fun m hm => lt_of_mem_ancestorsFrom hm, ih p⟩
    next => exact List.Pairwise.nil

/-! ### Nodes inside a node and beside it -/

theorem lt_of_mem_descendants (hn : n < (Document.ofNodes nodes).size)
    (h : m ∈ (Document.ofNodes nodes).descendants n) : m < (Document.ofNodes nodes).size := by
  have hlast := Document.last_lt nodes hn
  rw [Document.descendants, Document.numbers, List.mem_range'_1] at h
  omega

theorem pairwise_descendants (d : Document) (n : Nat) : (d.descendants n).Pairwise (· < ·) := by
  rw [Document.descendants, Document.numbers]
  exact List.pairwise_lt_range'

theorem pairwise_cons_descendants (d : Document) (n : Nat) :
    (n :: d.descendants n).Pairwise (· < ·) := by
  refine List.pairwise_cons.mpr ⟨fun m hm => ?_, pairwise_descendants d n⟩
  rw [Document.descendants, Document.numbers, List.mem_range'_1] at hm
  exact hm.1

theorem lt_of_mem_siblings (hn : n < (Document.ofNodes nodes).size)
    (h : m ∈ (Document.ofNodes nodes).siblings n) : m < (Document.ofNodes nodes).size := by
  rw [Document.siblings] at h
  split at h
  next p hp =>
    have hlt := Document.lt_of_parent? nodes hp
    exact lt_of_mem_descendants (Nat.lt_trans hlt hn) (List.mem_of_mem_filter h)
  next =>
    rw [List.mem_singleton.mp h]
    exact hn

theorem pairwise_siblings (d : Document) (n : Nat) : (d.siblings n).Pairwise (· < ·) := by
  rw [Document.siblings]
  split
  next p _ => exact (pairwise_descendants d p).filter _
  next => exact List.pairwise_singleton _ n

/-! ### All axes -/

/-- **Axes lead to nodes of the document.** -/
theorem isClosed_size (nodes : List Markup.Node) :
    IsClosed (Document.ofNodes nodes) fun n => n < (Document.ofNodes nodes).size := by
  refine ⟨by rw [Document.size_ofNodes]; exact Nat.succ_pos _, ?_⟩
  intro axis n hn m hm
  have hancestor : ∀ m ∈ (Document.ofNodes nodes).ancestors n,
      m < (Document.ofNodes nodes).size := by
    intro m hm
    exact Nat.lt_trans (lt_of_mem_ancestorsFrom hm) hn
  cases axis with
  | child => exact lt_of_mem_descendants hn (List.mem_of_mem_filter hm)
  | descendant => exact lt_of_mem_descendants hn hm
  | descendantOrSelf =>
    rcases List.mem_cons.mp hm with rfl | hm
    · exact hn
    · exact lt_of_mem_descendants hn hm
  | self =>
    rw [List.mem_singleton.mp hm]
    exact hn
  | parent =>
    have hlt := Document.lt_of_parent? nodes (Option.mem_toList.mp hm)
    exact Nat.lt_trans hlt hn
  | ancestor => exact hancestor m hm
  | ancestorOrSelf =>
    rcases List.mem_cons.mp hm with rfl | hm
    · exact hn
    · exact hancestor m hm
  | followingSibling => exact lt_of_mem_siblings hn (List.mem_of_mem_filter hm)
  | precedingSibling =>
    exact lt_of_mem_siblings hn (List.mem_of_mem_filter (List.mem_reverse.mp hm))
  | following => exact List.mem_range.mp (List.mem_of_mem_filter hm)
  | preceding =>
    have hlt := List.mem_range.mp (List.mem_of_mem_filter (List.mem_reverse.mp hm))
    exact Nat.lt_trans hlt hn
  | _ => simp [Axis.nodes] at hm

/-- **Axes list their nodes nearest first**, each once. -/
theorem pairwise_nodes (nodes : List Markup.Node) (n : Nat) (axis : Axis) :
    (axis.nodes (Document.ofNodes nodes) n).Pairwise axis.Nearer := by
  have hancestors := pairwise_ancestorsFrom nodes (Document.ofNodes nodes).size n
  -- What lies inside, beside or after the node is listed as it is numbered; the axes that lead back
  -- turn such a list around or climb from node to node.
  cases axis with
  | child => exact (pairwise_descendants _ n).filter _
  | descendant => exact pairwise_descendants _ n
  | descendantOrSelf => exact pairwise_cons_descendants _ n
  | self => exact List.pairwise_singleton _ n
  | parent =>
    rw [Axis.nodes]
    cases (Document.ofNodes nodes).parent? n with
    | none => exact List.Pairwise.nil
    | some p => exact List.pairwise_singleton _ p
  | ancestor => exact hancestors
  | ancestorOrSelf =>
    exact List.pairwise_cons.mpr ⟨fun m hm => lt_of_mem_ancestorsFrom hm, hancestors⟩
  | followingSibling => exact (pairwise_siblings _ n).filter _
  | precedingSibling => exact List.pairwise_reverse.mpr ((pairwise_siblings _ n).filter _)
  | following => exact List.pairwise_lt_range.filter _
  | preceding => exact List.pairwise_reverse.mpr (List.pairwise_lt_range.filter _)
  | _ => exact List.Pairwise.nil

end ScreenInspector.Expression
