/-
  ScreenInspector/Proofs/ReferenceIndex.lean
  ==========================================
  **The index of a tree is exact.**

  Building the index goes through the nodes in order, and what it does to a list is what it does
  to the first part and then, from the index reached there, to the rest (`extend_append`).  A list
  in which something comes twice has a first element that repeats an earlier one
  (`exists_first_repeat`); up to there the index is built without a fault, and there the building
  stops with just that reference (`assemble_eq_repeated_iff`).

  In a tree that could be assembled, a reference is that of one node or none, and looking it up
  gives that node (`filter_reference_eq`).  The web view is found by its path, and the first path is
  that of the first node (`webView?_eq_find?`).
-/
import ScreenInspector.Proofs.RecursiveTraversals

namespace ScreenInspector

/-! ### The first repetition -/

/-- In a list in which something comes twice there is a first element that was there before. -/
theorem exists_first_repeat {α β : Type} (f : α → β) {l : List α} (h : ¬ (l.map f).Nodup) :
    ∃ earlier a later, l = earlier ++ a :: later ∧ (earlier.map f).Nodup ∧
      f a ∈ earlier.map f := by
  induction l using List.reverseRecOn with
  | nil => exact absurd List.nodup_nil h
  | append_singleton earlier a ih =>
    by_cases hearlier : (earlier.map f).Nodup
    · refine ⟨earlier, a, [], rfl, hearlier, ?_⟩
      by_contra hnew
      apply h
      rw [List.map_append, List.nodup_append]
      refine ⟨hearlier, List.nodup_singleton _, ?_⟩
      intro b hb c hc heq
      rw [List.map_singleton, List.mem_singleton] at hc
      exact hnew (hc ▸ heq ▸ hb)
    · obtain ⟨first, b, later, rfl, hfirst, hb⟩ := ih hearlier
      exact ⟨first, b, later ++ [a], by simp, hfirst, hb⟩

namespace PathIndex

theorem extend_append {index index' : PathIndex} {earlier : List (List Nat × Node)}
    (h : extend index earlier = .ok index') (later : List (List Nat × Node)) :
    extend index (earlier ++ later) = extend index' later := by
  induction earlier generalizing index with
  | nil =>
    rw [extend] at h
    cases h
    rfl
  | cons head rest ih =>
    obtain ⟨path, n⟩ := head
    rw [List.cons_append, extend]
    rw [extend] at h
    by_cases hknown : (index.lookup n.reference).isSome = true
    · rw [if_pos hknown] at h
      cases h
    · rw [if_neg hknown] at h ⊢
      exact ih h

/-- **Building an index stops at the first repetition.** -/
theorem extend_repeated {earlier later : List (List Nat × Node)} {path : List Nat} {n : Node}
    (hearlier : (earlier.map fun p => p.2.reference).Nodup)
    (hrepeated : n.reference ∈ earlier.map fun p => p.2.reference) :
    extend [] (earlier ++ (path, n) :: later) = .error (.repeatedReference n.reference) := by
  have hindex : extend [] earlier = .ok (earlier.map fun p => (p.2.reference, p.1)).reverse := by
    rw [extend_eq_ok_iff, List.append_nil]
    exact ⟨hearlier, fun _ _ => rfl, rfl⟩
  have hknown : ((earlier.map fun p => (p.2.reference, p.1)).reverse.lookup n.reference).isSome =
      true := by
    rw [List.lookup_isSome_iff]
    obtain ⟨p, hp, heq⟩ := List.mem_map.mp hrepeated
    exact ⟨(p.2.reference, p.1), List.mem_reverse.mpr (List.mem_map_of_mem hp), by simp [heq]⟩
  rw [extend_append hindex, extend, if_pos hknown]

end PathIndex

namespace Tree

variable {root : Node} {served : Option String} {kind : String} {t : Tree}

theorem assemble_without_rect (h : root.element.rect = none) (served : Option String)
    (kind : String) : assemble root served kind = .error (.rootWithoutGeometry root.reference) := by
  rw [assemble, h]
  rfl

/-- **The first reference that repeats an earlier one is named** in the fault. -/
theorem assemble_repeated (hrect : root.element.rect.isSome = true) {earlier later : List Node}
    {n : Node} (hsplit : root.preorder = earlier ++ n :: later)
    (hearlier : (earlier.map Node.reference).Nodup)
    (hrepeated : n.reference ∈ earlier.map Node.reference) (served : Option String)
    (kind : String) :
    assemble root served kind = .error (.repeatedReference n.reference) := by
  rw [← Node.all_eq_preorder, ← Node.map_snd_withPaths] at hsplit
  obtain ⟨first, second, hpaths, rfl, hsecond⟩ := List.map_eq_append_iff.mp hsplit
  obtain ⟨⟨path, m⟩, rest, rfl, rfl, rfl⟩ := List.map_eq_cons_iff.mp hsecond
  rw [List.map_map] at hearlier hrepeated
  have hextend : PathIndex.extend [] (first ++ (path, m) :: rest) =
      .error (.repeatedReference m.reference) :=
    PathIndex.extend_repeated hearlier hrepeated
  rw [assemble, if_neg (by simpa [Option.isSome_iff_ne_none] using hrect), hpaths]
  simp only [hextend]
  rfl

theorem not_nodup_of_assemble_repeated {reference : String}
    (h : assemble root served kind = .error (.repeatedReference reference)) :
    ¬ (root.preorder.map Node.reference).Nodup := by
  intro hnodup
  rw [← Node.all_eq_preorder] at hnodup
  cases hrect : root.element.rect with
  | none =>
    rw [assemble_without_rect hrect] at h
    cases h
  | some r =>
    have hok : ∃ index, PathIndex.extend [] root.withPaths = .ok index := by
      have hplain : ∃ t, assemble root none kind = .ok t :=
        ⟨_, assemble_eq_ok_iff.mpr ⟨by rw [hrect]; rfl, hnodup, by simp, rfl⟩⟩
      obtain ⟨t, ht⟩ := hplain
      exact (assemble_ok ht).2.2
    obtain ⟨index, hindex⟩ := hok
    simp only [assemble, hrect, Option.isNone_some, Bool.false_eq_true, if_false, hindex, ok_bind]
      at h
    cases served with
    | none => cases h
    | some source =>
      cases hread : Markup.readNodes source with
      | error fault => simp [hread] at h
      | ok nodes => simp [hread] at h

theorem assemble_eq_repeated_iff (hrect : root.element.rect.isSome = true) {reference : String} :
    assemble root served kind = .error (.repeatedReference reference) ↔
      ∃ earlier n later, root.preorder = earlier ++ n :: later ∧
        (earlier.map Node.reference).Nodup ∧ n.reference ∈ earlier.map Node.reference ∧
        n.reference = reference := by
  constructor
  · intro h
    obtain ⟨earlier, n, later, hsplit, hearlier, hrepeated⟩ :=
      exists_first_repeat Node.reference (not_nodup_of_assemble_repeated h)
    have hfault := assemble_repeated hrect hsplit hearlier hrepeated served kind
    rw [h] at hfault
    injection hfault with hfault
    injection hfault with hreference
    exact ⟨earlier, n, later, hsplit, hearlier, hrepeated, hreference.symm⟩
  · rintro ⟨earlier, n, later, hsplit, hearlier, hrepeated, rfl⟩
    exact assemble_repeated hrect hsplit hearlier hrepeated served kind

/-! ### Looking up -/

/-- **A reference is that of one node or none**, and looking it up gives that node. -/
theorem filter_reference_eq (h : assemble root served kind = .ok t) (reference : String) :
    t.nodes.filter (fun n => n.reference == reference) = (t.find? reference).toList := by
  have hnodup := references_nodup h
  cases hfind : t.find? reference with
  | none =>
    rw [Option.toList_none, List.filter_eq_nil_iff]
    intro n hn heq
    have hsome := (find?_eq_some_iff h).mpr ⟨hn, beq_iff_eq.mp heq⟩
    rw [hfind] at hsome
    cases hsome
  | some n =>
    obtain ⟨hn, rfl⟩ := (find?_eq_some_iff h).mp hfind
    obtain ⟨before, after, hsplit⟩ := List.append_of_mem hn
    rw [hsplit, List.map_append, List.map_cons, List.nodup_append, List.nodup_cons] at hnodup
    obtain ⟨-, ⟨hafter, -⟩, hbefore⟩ := hnodup
    have hdropbefore : before.filter (fun m => m.reference == n.reference) = [] := by
      rw [List.filter_eq_nil_iff]
      intro m hm heq
      exact hbefore _ (List.mem_map_of_mem hm) _ List.mem_cons_self (beq_iff_eq.mp heq)
    have hdropafter : after.filter (fun m => m.reference == n.reference) = [] := by
      rw [List.filter_eq_nil_iff]
      intro m hm heq
      exact hafter (beq_iff_eq.mp heq ▸ List.mem_map_of_mem hm)
    rw [hsplit, List.filter_append, List.filter_cons, if_pos (beq_self_eq_true _), hdropbefore,
      hdropafter]
    rfl

theorem size_eq_length_nodes (h : assemble root served kind = .ok t) :
    t.size = t.nodes.length := by
  obtain ⟨-, -, -, rfl⟩ := assemble_eq_ok_iff.mp h
  rw [size, nodes, List.length_map, ← Node.map_snd_withPaths, List.length_map]

/-- **The web view is the first node of its kind.** -/
theorem webView?_eq_find? (h : assemble root served kind = .ok t) :
    t.webView? = t.nodes.find? fun n => n.element.kind == kind := by
  obtain ⟨-, -, -, rfl⟩ := assemble_eq_ok_iff.mp h
  rw [webView?, nodes, ← Node.map_snd_withPaths, List.find?_map]
  cases hfind : root.withPaths.find? fun p => p.2.element.kind == kind with
  | none =>
    have hnone : root.withPaths.find? ((fun n => n.element.kind == kind) ∘ Prod.snd) = none := hfind
    rw [hnone]
    rfl
  | some p =>
    have hsome : root.withPaths.find? ((fun n => n.element.kind == kind) ∘ Prod.snd) = some p :=
      hfind
    rw [hsome]
    exact Node.mem_withPaths.mp (List.mem_of_find?_eq_some hfind)

/-- **The index of a tree is exact**: which roots have one, what is reported when there is none,
and what is found in it. -/
theorem index_exact (root : Node) :
    ((∃ t, ofNode root = .ok t) ↔
      root.element.rect.isSome = true ∧ (root.preorder.map Node.reference).Nodup) ∧
    ∀ served kind,
      (root.element.rect = none →
        assemble root served kind = .error (.rootWithoutGeometry root.reference)) ∧
      (root.element.rect.isSome = true →
        (¬ (root.preorder.map Node.reference).Nodup →
          ∃ reference, assemble root served kind = .error (.repeatedReference reference)) ∧
        ∀ reference, assemble root served kind = .error (.repeatedReference reference) ↔
          ∃ earlier n later, root.preorder = earlier ++ n :: later ∧
            (earlier.map Node.reference).Nodup ∧ n.reference ∈ earlier.map Node.reference ∧
            n.reference = reference) ∧
      ∀ t, assemble root served kind = .ok t →
        (∀ reference, root.preorder.filter (fun n => n.reference == reference) =
          (t.find? reference).toList) ∧
        t.size = root.preorder.length ∧
        t.webView? = root.preorder.find? fun n => n.element.kind == kind := by
  constructor
  · rw [← Node.all_eq_preorder]
    simp [ofNode, assemble_eq_ok_iff]
  · intro served kind
    refine ⟨fun hrect => assemble_without_rect hrect served kind, ?_, ?_⟩
    · intro hrect
      refine ⟨?_, fun reference => assemble_eq_repeated_iff hrect⟩
      intro h
      obtain ⟨earlier, n, later, hsplit, hearlier, hrepeated⟩ := exists_first_repeat _ h
      exact ⟨n.reference, assemble_repeated hrect hsplit hearlier hrepeated served kind⟩
    · intro t h
      have hnodes : t.nodes = root.preorder := by
        rw [nodes, (assemble_ok h).1, Node.all_eq_preorder]
      rw [← hnodes]
      exact ⟨filter_reference_eq h, size_eq_length_nodes h, webView?_eq_find? h⟩

def leaf (reference kind : String) : Node :=
  .node ⟨reference, kind, none, [], none, none⟩ []

/-- A window with four texts, of which `a` is there twice before `b` is. -/
def repeatedTexts : Node :=
  .node ⟨"window", "Window", some ⟨0, 0, 10, 10⟩, [], none, none⟩
    [leaf "a" "Text", leaf "b" "Text", leaf "a" "Text", leaf "b" "Text"]

/-- A window with a text and two web views. -/
def twoWebViews : Node :=
  .node ⟨"window", "Window", some ⟨0, 0, 10, 10⟩, [], none, none⟩
    [leaf "a" "Text", leaf "b" "WebView", leaf "c" "WebView"]

/-- The first repeated reference is refused; without repetitions every reference is found, and the
first web view is the web view of the tree. -/
theorem index_exact_siblings :
    ofNode repeatedTexts = .error (.repeatedReference "a") ∧
    ∃ t, ofNode twoWebViews = .ok t ∧ (t.find? "b").toList = [leaf "b" "WebView"] ∧
      t.find? "d" = none ∧ t.size = 4 ∧ t.webView? = some (leaf "b" "WebView") := by
  have hrepeated : repeatedTexts.preorder =
      [repeatedTexts, leaf "a" "Text", leaf "b" "Text", leaf "a" "Text", leaf "b" "Text"] := by
    simp [repeatedTexts, leaf, Node.preorder]
  have hdistinct : twoWebViews.preorder =
      [twoWebViews, leaf "a" "Text", leaf "b" "WebView", leaf "c" "WebView"] := by
    simp [twoWebViews, leaf, Node.preorder]
  constructor
  · obtain ⟨-, hindex⟩ := index_exact repeatedTexts
    obtain ⟨-, hfaults, -⟩ := hindex none webViewKind
    exact ((hfaults rfl).2 "a").mpr ⟨[repeatedTexts, leaf "a" "Text", leaf "b" "Text"],
      leaf "a" "Text", [leaf "b" "Text"], hrepeated, by decide, by decide, rfl⟩
  · obtain ⟨hassembled, hindex⟩ := index_exact twoWebViews
    obtain ⟨t, ht⟩ := hassembled.mpr ⟨rfl, by rw [hdistinct]; decide⟩
    obtain ⟨-, -, hexact⟩ := hindex none webViewKind
    obtain ⟨hfind, hsize, hwebView⟩ := hexact t ht
    rw [hdistinct] at hfind hsize hwebView
    refine ⟨t, ht, (hfind "b").symm, ?_, hsize, hwebView⟩
    exact Option.toList_eq_nil_iff.mp (hfind "d").symm

end Tree

end ScreenInspector
