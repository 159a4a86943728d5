/-
  ScreenInspector/Proofs/Traversal.lean
  =====================================
  **Walks are recursions**, and what a tree's index says about its references.

  A walk keeps a list of the trees still to visit.  Since it visits an agenda from the front, the
  walk of two agendas is the walk of the first followed by that of the second (`walk_append`), so
  the elements of a tree are its root followed by the elements of its children (`all_node`).
  Labels do not change what is visited, hence every walk visits the elements of `all`.

  An index is only complete if no reference comes twice (`references_nodup`).
-/
import ScreenInspector.Proofs.Outcomes
import ScreenInspector.Screen.Tree
import Mathlib.Data.List.Nodup

namespace ScreenInspector

namespace Node

/-- Induction over trees: a property of all children passes to the tree. -/
theorem induction {motive : Node → Prop}
    (node : ∀ e children, (∀ c ∈ children, motive c) → motive (.node e children)) :
    ∀ n, motive n
  | .node e children => node e children fun c _ => induction node c
termination_by n => sizeOf n

/-! ### Walks -/

variable {α : Type}

theorem walk_nil (next : α → Nat → α) : walk next [] = [] := by
  rw [walk]

theorem walk_cons (next : α → Nat → α) (a : α) (n : Node) (rest : Agenda α) :
    walk next ((a, n) :: rest) = (a, n) :: walk next (labelled next a 0 n.children ++ rest) := by
  rw [walk]

theorem walk_append (next : α → Nat → α) (first second : Agenda α) :
    walk next (first ++ second) = walk next first ++ walk next second := by
  fun_induction walk next first with
  | case1 => rfl
  | case2 a n rest ih =>
    rw [List.cons_append, walk_cons, ← List.append_assoc, ih, List.cons_append]

theorem map_labelled {β : Type} (f : α → β) (next : α → Nat → α) (next' : β → Nat → β)
    (hnext : ∀ a i, f (next a i) = next' (f a) i) (a : α) (i : Nat) (ns : List Node) :
    (labelled next a i ns).map (Prod.map f id) = labelled next' (f a) i ns := by
  induction ns generalizing i with
  | nil => rfl
  | cons n rest ih => simp only [labelled, List.map_cons, Prod.map_apply, hnext, id_eq, ih]

/-- A map of labels that goes along with the way they are made goes along with the walk. -/
theorem map_walk {β : Type} (f : α → β) (next : α → Nat → α) (next' : β → Nat → β)
    (hnext : ∀ a i, f (next a i) = next' (f a) i) (agenda : Agenda α) :
    (walk next agenda).map (Prod.map f id) = walk next' (agenda.map (Prod.map f id)) := by
  fun_induction walk next agenda with
  | case1 => simp only [List.map_nil, walk_nil]
  | case2 a n rest ih =>
    rw [List.map_cons, ih, List.map_append, map_labelled f next next' hnext, List.map_cons]
    simp only [Prod.map_apply, id_eq, walk_cons]

/-- Whatever the labels, a walk visits the elements of the trees of its agenda. -/
theorem map_snd_walk (next : α → Nat → α) (agenda : Agenda α) :
    (walk next agenda).map Prod.snd = (agenda.map Prod.snd).flatMap all := by
  have hunit := map_walk (fun _ => ()) next (fun _ _ => ()) (fun _ _ => rfl) agenda
  have hsnd : (walk next agenda).map Prod.snd =
      (walk (fun _ _ => ()) (agenda.map (Prod.map (fun _ => ()) id))).map Prod.snd := by
    rw [← hunit, List.map_map]
    rfl
  rw [hsnd]
  clear hunit hsnd
  -- With the labels of `all`, the walk of the first tree is by definition what `all` visits.
  induction agenda with
  | nil => simp only [List.map_nil, walk_nil, List.flatMap_nil]
  | cons head rest ih =>
    rw [List.map_cons, ← List.singleton_append, walk_append, List.map_append, ih]
    rfl

/-- **The elements of a tree** are the tree itself and the elements of its children. -/
theorem all_node (e : Element) (children : List Node) :
    (node e children).all = node e children :: children.flatMap all := by
  have hlabels : ∀ i, (labelled (fun (_ : Unit) _ => ()) () i children).map Prod.snd = children := by
    induction children with
    | nil => intro i; rfl
    | cons c rest ih => intro i; simp only [labelled, List.map_cons, ih]
  rw [all, walk_cons, List.append_nil, List.map_cons, map_snd_walk, Node.children, hlabels]

theorem self_mem_all (n : Node) : n ∈ n.all := by
  cases n with
  | node e children => rw [all_node]; exact List.mem_cons_self

theorem map_snd_withPaths (n : Node) : n.withPaths.map Prod.snd = n.all := by
  have h := map_snd_walk (fun (path : ReversedPath) i => i :: path) [([], n)]
  rw [withPaths, List.map_map]
  simpa [Function.comp_def] using h

end Node

/-! ### References -/

/-- **An index can be extended iff no reference comes twice**, and then it has the path of every
node under its reference. -/
theorem PathIndex.extend_eq_ok_iff {index index' : PathIndex} {nodes : List (List Nat × Node)} :
    PathIndex.extend index nodes = .ok index' ↔
      (nodes.map fun p => p.2.reference).Nodup ∧
      (∀ p ∈ nodes, index.lookup p.2.reference = none) ∧
      index' = (nodes.map fun p => (p.2.reference, p.1)).reverse ++ index := by
  induction nodes generalizing index with
  | nil => simp [PathIndex.extend, eq_comm]
  | cons head rest ih =>
    obtain ⟨path, n⟩ := head
    -- What is new for the longer index is new for the shorter one and is not `n` again.
    have hlonger : ∀ p : List Nat × Node,
        ((n.reference, path) :: index).lookup p.2.reference = none ↔
          p.2.reference ≠ n.reference ∧ index.lookup p.2.reference = none := by
      intro p
      simp only [List.lookup_eq_none_iff, List.forall_mem_cons, bne_iff_ne]
    rw [PathIndex.extend]
    simp only [List.map_cons, List.nodup_cons, List.forall_mem_cons, List.reverse_cons,
      List.append_assoc, List.singleton_append]
    cases hknown : index.lookup n.reference with
    | some old => simp
    | none =>
      simp only [Option.isSome_none, Bool.false_eq_true, if_false, ih, hlonger, true_and]
      constructor
      · rintro ⟨hnodup, hlater, rfl⟩
        refine ⟨⟨?_, hnodup⟩, fun p hp => (hlater p hp).2, rfl⟩
        intro hn
        obtain ⟨p, hp, heq⟩ := List.mem_map.mp hn
        exact (hlater p hp).1 heq
      · rintro ⟨⟨hn, hnodup⟩, hlater, rfl⟩
        refine ⟨hnodup, fun p hp => ⟨?_, hlater p hp⟩, rfl⟩
        intro heq
        exact hn (List.mem_map.mpr ⟨p, hp, heq⟩)

namespace Tree

theorem assemble_ok {root : Node} {served : Option String} {kind : String} {t : Tree}
    (h : assemble root served kind = .ok t) :
    t.root = root ∧ t.source = served.getD root.sourceText ∧
      ∃ index, PathIndex.extend [] root.withPaths = .ok index := by
  simp only [assemble] at h
  split at h
  · cases h
  · obtain ⟨index, hindex, h⟩ := bind_eq_ok_iff.mp h
    cases served with
    | none =>
      cases h
      exact ⟨rfl, rfl, index, hindex⟩
    | some source =>
      cases hread : Markup.readNodes source with
      | error fault => simp [hread] at h
      | ok nodes =>
        simp only [hread] at h
        cases h
        exact ⟨rfl, rfl, index, hindex⟩

/-- **No two nodes of a tree have the same reference.** -/
theorem references_nodup {root : Node} {served : Option String} {kind : String} {t : Tree}
    (h : assemble root served kind = .ok t) : (t.nodes.map Node.reference).Nodup := by
  obtain ⟨hroot, -, index, hindex⟩ := assemble_ok h
  have hreferences : root.withPaths.map (fun p => p.2.reference) = t.nodes.map Node.reference := by
    rw [nodes, hroot, ← Node.map_snd_withPaths, List.map_map]
    rfl
  rw [← hreferences]
  exact (PathIndex.extend_eq_ok_iff.mp hindex).1

end Tree

end ScreenInspector
