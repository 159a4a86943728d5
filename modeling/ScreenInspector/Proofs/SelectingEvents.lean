/-
  ScreenInspector/Proofs/SelectingEvents.lean
  ===========================================
  **What events that select do.**

  The pointer selects nodes of the current tree, over the picture as over the tree view, or leaves
  everything as it is.  An expression selects the reference that it is answered with, if that is the
  only one, and clears the selection otherwise.
-/
import ScreenInspector.Inspection.Inspector
import ScreenInspector.Proofs.NodePaths

namespace ScreenInspector

theorem Tree.mem_nodes_of_find? {t : Tree} {reference : String} {n : Node}
    (h : t.find? reference = some n) : n ∈ t.nodes := by
  obtain ⟨path, -, hpath⟩ := Option.bind_eq_some_iff.mp h
  exact Node.mem_all_iff.mpr ⟨path, hpath⟩

theorem Tree.mem_nodes_of_nodeAt? {t : Tree} {p : Point} {n : Node} (h : t.nodeAt? p = some n) :
    n ∈ t.nodes := by
  -- The best node so far is always one of the candidates.
  have hbest : ∀ (ns : List Node) (best : Option Node), ns.foldl smaller best = some n →
      best = some n ∨ n ∈ ns := by
    intro ns
    induction ns with
    | nil => exact fun best hbest => Or.inl hbest
    | cons m rest ih =>
      intro best hbest
      rcases ih _ hbest with hnext | hlater
      · cases best with
        | none => exact Or.inr (by simp [Option.some.inj hnext])
        | some b =>
          rw [smaller] at hnext
          split at hnext
          · exact Or.inr (by simp [Option.some.inj hnext])
          · exact Or.inl hnext
      · exact Or.inr (List.mem_cons_of_mem m hlater)
  rw [nodeAt?] at h
  split at h
  · rcases hbest _ _ h with hnone | hcandidate
    · cases hnone
    · exact List.mem_of_mem_filter hcandidate
  · cases h

namespace Inspector

theorem pointerMove_cases (i : Inspector) (shown : Point) : (i.pointerMove shown).2 = i ∨
    ∃ t n, i.tree? = some t ∧ n ∈ t.nodes ∧ (i.pointerMove shown).2 = i.selecting n.reference := by
  rw [pointerMove]
  split
  · exact Or.inl rfl
  · cases htree : i.tree? with
    | none => exact Or.inl rfl
    | some t =>
      dsimp only
      cases hnode : t.nodeAt? (i.scale.toDevice shown) with
      | none => exact Or.inl rfl
      | some n => exact Or.inr ⟨t, n, rfl, Tree.mem_nodes_of_nodeAt? hnode, rfl⟩

theorem treeHover_cases (i : Inspector) (reference : String) : (i.treeHover reference).2 = i ∨
    ∃ t n, i.tree? = some t ∧ n ∈ t.nodes ∧ (i.treeHover reference).2 = i.selecting n.reference := by
  rw [treeHover]
  split
  · exact Or.inl rfl
  · cases hfound : i.tree?.bind fun t => (t.find? reference).map fun n => (t, n) with
    | none => exact Or.inl rfl
    | some found =>
      obtain ⟨t, htree, hfound⟩ := Option.bind_eq_some_iff.mp hfound
      obtain ⟨n, hnode, rfl⟩ := Option.map_eq_some_iff.mp hfound
      exact Or.inr ⟨t, n, htree, Tree.mem_nodes_of_find? hnode, rfl⟩

theorem locatorInput_cases (i : Inspector) (expression : String) :
    (i.locatorInput expression).2 = i ∨
    (i.locatorInput expression).2 = { i with latestSelection := none } ∨
    ∃ t reference, i.tree? = some t ∧ t.evaluator.answer [] expression = .ok [reference] ∧
      (i.locatorInput expression).2 = i.selecting reference := by
  rw [locatorInput]
  cases htree : i.tree? with
  | none => exact Or.inl rfl
  | some t =>
    dsimp only
    cases hanswer : t.evaluator.answer [] expression with
    | error e => exact Or.inr (Or.inl rfl)
    | ok found =>
      dsimp only
      split
      next only => exact Or.inr (Or.inr ⟨t, only, rfl, hanswer, rfl⟩)
      next => exact Or.inr (Or.inl rfl)

/-- An expression selects the only reference that it is answered with. -/
theorem locatorInput_of_answer {i : Inspector} {t : Tree} {expression reference : String}
    (htree : i.tree? = some t) (h : t.evaluator.answer [] expression = .ok [reference]) :
    (i.locatorInput expression).2 = i.selecting reference := by
  simp only [locatorInput, htree, h]

end Inspector

end ScreenInspector
