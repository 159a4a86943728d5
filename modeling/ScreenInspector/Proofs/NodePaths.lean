/-
  ScreenInspector/Proofs/NodePaths.lean
  =====================================
  **Paths of nodes**, and the index that holds them.

  The walk that lists the nodes with their paths lists every path once, with the node that lies at
  its end (`mem_withPaths`, `nodup_paths`).  A tree is assembled iff nothing is wrong with its root,
  its references and its source text (`Tree.assemble_eq_ok_iff`), and then the index has the path of
  every node (`Tree.lookup_index_eq_some_iff`) and finds exactly the nodes of the tree by their
  references (`Tree.find?_eq_some_iff`).
-/
import ScreenInspector.Proofs.Traversal
import Mathlib.Data.List.Sigma

namespace ScreenInspector

namespace Node

/-! ### Paths -/

theorem at?_nil (n : Node) : n.at? [] = some n := rfl

theorem at?_cons (i : Nat) (rest : List Nat) (n : Node) :
    n.at? (i :: rest) = n.children[i]?.bind (at? rest) := rfl

/-- Paths grow at their end, so a walk that begins on a path adds that path in front. -/
theorem walk_path (path : ReversedPath) (n : Node) :
    (walk (fun path i => i :: path) [(path, n)]).map (Prod.map List.reverse id) =
      n.withPaths.map (Prod.map (path.reverse ++ ·) id) := by
  have hprefix := map_walk (fun below : ReversedPath => below ++ path)
    (fun below i => i :: below) (fun below i => i :: below) (fun _ _ => rfl) [([], n)]
  rw [List.map_singleton, Prod.map_apply, List.nil_append, id_eq] at hprefix
  rw [← hprefix, withPaths, List.map_map, List.map_map]
  apply List.map_congr_left
  rintro ⟨below, m⟩ _
  simp only [Function.comp_apply, Prod.map_apply, id_eq, List.reverse_append]

theorem walk_labelled (i : Nat) (children : List Node) :
    (walk (fun (path : ReversedPath) i => i :: path)
        (labelled (fun path i => i :: path) [] i children)).map (Prod.map List.reverse id) =
      (children.zipIdx i).flatMap fun (c, k) => c.withPaths.map (Prod.map (k :: ·) id) := by
  induction children generalizing i with
  | nil => simp only [labelled, walk_nil, List.zipIdx_nil, List.map_nil, List.flatMap_nil]
  | cons c rest ih =>
    rw [labelled, ← List.singleton_append, walk_append, List.map_append, ih, walk_path,
      List.zipIdx_cons, List.flatMap_cons]
    rfl

/-- **The paths of a tree** are the empty one and those of its children, each behind the position
of the child. -/
theorem withPaths_node (e : Element) (children : List Node) :
    (node e children).withPaths = ([], node e children) ::
      children.zipIdx.flatMap fun (c, k) => c.withPaths.map (Prod.map (k :: ·) id) := by
  have hpaths : (node e children).withPaths =
      (walk (fun (path : ReversedPath) i => i :: path) [([], node e children)]).map
        (Prod.map List.reverse id) := rfl
  rw [hpaths, walk_cons, List.append_nil, List.map_cons, Node.children, walk_labelled]
  rfl

/-- **Every node is listed with its path**, and nothing else is. -/
theorem mem_withPaths {n m : Node} {path : List Nat} :
    (path, m) ∈ n.withPaths ↔ n.at? path = some m := by
  induction n using Node.induction generalizing path with
  | node e children ih =>
    rw [withPaths_node, List.mem_cons, List.mem_flatMap]
    cases path with
    | nil => simp [at?_nil, eq_comm]
    | cons i rest =>
      rw [at?_cons, Option.bind_eq_some_iff]
      constructor
      · rintro (h | ⟨⟨c, k⟩, hc, hm⟩)
        · cases h
        · obtain ⟨⟨below, found⟩, hbelow, heq⟩ := List.mem_map.mp hm
          simp only [Prod.map_apply, id_eq, Prod.mk.injEq, List.cons.injEq] at heq
          obtain ⟨⟨rfl, rfl⟩, rfl⟩ := heq
          have hget := List.mem_zipIdx_iff_getElem?.mp hc
          exact ⟨c, hget, (ih c (List.mem_of_getElem? hget)).mp hbelow⟩
      · rintro ⟨c, hget, hm⟩
        refine Or.inr ⟨(c, i), List.mem_zipIdx_iff_getElem?.mpr hget, ?_⟩
        exact List.mem_map.mpr
          ⟨(rest, m), (ih c (List.mem_of_getElem? hget)).mpr hm, rfl⟩

/-- No path is listed twice. -/
theorem nodup_paths (n : Node) : (n.withPaths.map Prod.fst).Nodup := by
  induction n using Node.induction with
  | node e children ih =>
    have hbelow : (children.zipIdx.flatMap fun (c, k) =>
        c.withPaths.map (Prod.map (k :: ·) id)).map Prod.fst =
        children.zipIdx.flatMap fun (c, k) => (c.withPaths.map Prod.fst).map (k :: ·) := by
      rw [List.map_flatMap]
      congr 1
      funext p
      simp only [List.map_map]
      rfl
    rw [withPaths_node, List.map_cons, hbelow, List.nodup_cons]
    refine ⟨by simp, ?_⟩
    rw [List.nodup_flatMap]
    constructor
    · rintro ⟨c, k⟩ hc
      exact (ih c (List.mem_of_getElem? (List.mem_zipIdx_iff_getElem?.mp hc))).map
        fun _ _ h => (List.cons.inj h).2
    · -- The paths through two children differ in their first position.
      refine (List.pairwise_map.mp (List.nodup_zipIdx_map_snd children)).imp ?_
      rintro ⟨c, k⟩ ⟨c', k'⟩ hne path hpath hpath'
      obtain ⟨_, _, rfl⟩ := List.mem_map.mp hpath
      obtain ⟨_, _, heq⟩ := List.mem_map.mp hpath'
      exact hne (List.cons.inj heq).1.symm

theorem mem_all_iff {n m : Node} : m ∈ n.all ↔ ∃ path, n.at? path = some m := by
  rw [← map_snd_withPaths, List.mem_map]
  constructor
  · rintro ⟨⟨path, found⟩, hfound, rfl⟩
    exact ⟨path, mem_withPaths.mp hfound⟩
  · rintro ⟨path, hpath⟩
    exact ⟨(path, m), mem_withPaths.mpr hpath, rfl⟩

/-- No reference comes twice iff nodes on different paths have different references. -/
theorem nodup_references_iff (n : Node) :
    (n.all.map reference).Nodup ↔ ∀ path path' m m', n.at? path = some m → n.at? path' = some m' →
      m.reference = m'.reference → path = path' := by
  have hmap : n.all.map reference = n.withPaths.map fun found => found.2.reference := by
    rw [← map_snd_withPaths, List.map_map]
    rfl
  rw [hmap]
  constructor
  · intro hnodup path path' m m' hm hm' heq
    have hfound := List.inj_on_of_nodup_map hnodup (mem_withPaths.mpr hm) (mem_withPaths.mpr hm') heq
    exact congrArg Prod.fst hfound
  · intro hdistinct
    refine List.Nodup.map_on ?_ (n.nodup_paths.of_map _)
    rintro ⟨path, m⟩ hm ⟨path', m'⟩ hm' heq
    rw [mem_withPaths] at hm hm'
    obtain rfl := hdistinct path path' m m' hm hm' heq
    rw [Option.some.inj (hm.symm.trans hm')]

end Node

namespace Tree

variable {root : Node} {served : Option String} {kind : String} {t : Tree}

/-- **When a tree can be assembled**, and what its index holds. -/
theorem assemble_eq_ok_iff : assemble root served kind = .ok t ↔
    root.element.rect.isSome = true ∧ (root.all.map Node.reference).Nodup ∧
    (∀ source, served = some source → ∃ nodes, Markup.readNodes source = .ok nodes) ∧
    t = ⟨root, served.getD root.sourceText, root.withPaths.map fun p => (p.2.reference, p.1),
      (root.withPaths.find? fun p => p.2.element.kind == kind).map Prod.fst⟩ := by
  have hreferences : root.withPaths.map (fun p => p.2.reference) = root.all.map Node.reference := by
    rw [← Node.map_snd_withPaths, List.map_map]
    rfl
  have hindex : ∀ index, PathIndex.extend [] root.withPaths = .ok index ↔
      (root.all.map Node.reference).Nodup ∧
        index = (root.withPaths.map fun p => (p.2.reference, p.1)).reverse := by
    intro index
    rw [PathIndex.extend_eq_ok_iff, hreferences, List.append_nil]
    simp
  rw [assemble, ← Option.not_isSome]
  cases hrect : root.element.rect.isSome with
  | false => simp
  | true =>
    simp only [Bool.not_true, Bool.false_eq_true, if_false, true_and, bind_eq_ok_iff, hindex]
    cases served with
    | none => simp [eq_comm]
    | some source =>
      cases hread : Markup.readNodes source with
      | error fault => simp [hread]
      | ok nodes => simp [hread, eq_comm]

/-- **The index has the path of every node** under the reference of that node. -/
theorem lookup_index_eq_some_iff (h : assemble root served kind = .ok t) {reference : String}
    {path : List Nat} : t.index.lookup reference = some path ↔
      ∃ n, t.root.at? path = some n ∧ n.reference = reference := by
  obtain ⟨-, hnodup, -, rfl⟩ := assemble_eq_ok_iff.mp h
  have hdistinct := (Node.nodup_references_iff root).mp hnodup
  -- Under a reference the index has the path of a node with that reference.
  have hentry : ∀ path, (root.withPaths.map fun p => (p.2.reference, p.1)).lookup reference =
      some path → ∃ n, root.at? path = some n ∧ n.reference = reference := by
    intro path hlookup
    obtain ⟨earlier, later, hsplit, -⟩ := List.lookup_eq_some_iff.mp hlookup
    have hmem : (reference, path) ∈ root.withPaths.map fun p => (p.2.reference, p.1) := by
      rw [hsplit]
      simp
    obtain ⟨⟨found, n⟩, hn, heq⟩ := List.mem_map.mp hmem
    obtain ⟨rfl, rfl⟩ := Prod.mk.inj heq
    exact ⟨n, Node.mem_withPaths.mp hn, rfl⟩
  refine ⟨hentry path, ?_⟩
  rintro ⟨n, hn, rfl⟩
  have hmem : (n.reference, path) ∈ root.withPaths.map fun p => (p.2.reference, p.1) :=
    List.mem_map.mpr ⟨(path, n), Node.mem_withPaths.mpr hn, rfl⟩
  cases hlookup : (root.withPaths.map fun p => (p.2.reference, p.1)).lookup n.reference with
  | none =>
    have hne := List.lookup_eq_none_iff.mp hlookup _ hmem
    exact absurd hne (by simp)
  | some found =>
    obtain ⟨m, hm, hreference⟩ := hentry found hlookup
    rw [hdistinct found path m n hm hn hreference]

/-- **The index finds the nodes of a tree**, each by its reference. -/
theorem find?_eq_some_iff (h : assemble root served kind = .ok t) {reference : String} {n : Node} :
    t.find? reference = some n ↔ n ∈ t.nodes ∧ n.reference = reference := by
  simp only [find?, nodes, Option.bind_eq_some_iff, Node.mem_all_iff, lookup_index_eq_some_iff h]
  constructor
  · rintro ⟨path, ⟨m, hm, hreference⟩, hn⟩
    obtain rfl := Option.some.inj (hm.symm.trans hn)
    exact ⟨⟨path, hn⟩, hreference⟩
  · rintro ⟨⟨path, hn⟩, hreference⟩
    exact ⟨path, ⟨n, hn, hreference⟩, hn⟩

end Tree

end ScreenInspector
