/-
  ScreenInspector/Proofs/HitTesting.lean
  ======================================
  **The node under a point** is the first of the smallest boxes that contain the point.

  The search keeps the best candidate so far and lets the next one replace it only if that is
  smaller.  So what is kept is, at every moment, the `IsFirstSmallest` of the candidates seen: larger
  ones before it, no smaller one at all.  One candidate more preserves this (`isFirstSmallest_step`),
  hence the whole search does (`foldl_smaller`), and at most one node of a list has the property
  (`IsFirstSmallest.unique`).  The step compares areas over three nodes; it needs that no area is
  NaN, and takes the order of the numbers from `Number.lt_iff_rank_lt`.

  Only boxes count.  Trees with the same elements in the same order have the same element under every
  point, however the elements are nested in them (`nodeAt?_congr_elements`).
-/
import ScreenInspector.Proofs.NumberOrder
import ScreenInspector.Proofs.RecursiveTraversals
import ScreenInspector.Screen.HitTest

namespace ScreenInspector

/-! ### Boxes that contain a point -/

theorem Node.covers_iff {p : Point} {n : Node} :
    n.covers p = true ↔ ∃ r, n.element.rect = some r ∧ r.contains p = true := by
  rw [covers]
  cases n.element.rect with
  | none => simp
  | some r => simp

/-- The areas of all boxes in a list of nodes are numbers. -/
def Node.HaveAreas (nodes : List Node) : Prop :=
  ∀ n ∈ nodes, ∀ r, n.element.rect = some r → r.area.isNaN = false

theorem Node.HaveAreas.area {nodes : List Node} (h : HaveAreas nodes) {n : Node}
    (hn : n ∈ nodes) : n.area.isNaN = false := by
  rw [Node.area]
  cases hrect : n.element.rect with
  | none => decide
  | some r => exact h n hn r hrect

/-! ### The first of the smallest -/

/-- In a list of nodes, those before a node are larger and none is smaller. -/
def IsFirstSmallest (seen : List Node) (m : Node) : Prop :=
  ∃ before after, seen = before ++ m :: after ∧ (∀ c ∈ before, m.area < c.area) ∧
    ∀ c ∈ seen, ¬ c.area < m.area

theorem IsFirstSmallest.mem {seen : List Node} {m : Node} (h : IsFirstSmallest seen m) :
    m ∈ seen := by
  obtain ⟨before, after, rfl, -, -⟩ := h
  exact List.mem_append_right _ List.mem_cons_self

theorem IsFirstSmallest.unique {seen : List Node} {m m' : Node} (h : IsFirstSmallest seen m)
    (h' : IsFirstSmallest seen m') : m = m' := by
  obtain ⟨before, after, hsplit, hbefore, hleast⟩ := h
  obtain ⟨before', after', hsplit', hbefore', hleast'⟩ := h'
  have hm : m ∈ seen := hsplit ▸ List.mem_append_right _ List.mem_cons_self
  have hm' : m' ∈ seen := hsplit' ▸ List.mem_append_right _ List.mem_cons_self
  rcases List.append_eq_append_iff.mp (hsplit.symm.trans hsplit') with
    ⟨between, rfl, htail⟩ | ⟨between, rfl, htail⟩
  · cases between with
    | nil => exact (List.cons.inj htail).1
    | cons c rest =>
      -- `m` stands before `m'` and would be larger.
      obtain ⟨rfl, -⟩ := List.cons.inj htail
      exact absurd (hbefore' m (List.mem_append_right _ List.mem_cons_self)) (hleast m' hm')
  · cases between with
    | nil => exact (List.cons.inj htail).1.symm
    | cons c rest =>
      obtain ⟨rfl, -⟩ := List.cons.inj htail
      exact absurd (hbefore m' (List.mem_append_right _ List.mem_cons_self)) (hleast' m hm)

namespace Tree

/-- **One candidate more**: the better of the best so far and the next one is the first of the
smallest of all seen. -/
theorem isFirstSmallest_step {seen : List Node} {best next : Node}
    (hareas : Node.HaveAreas (seen ++ [next])) (h : IsFirstSmallest seen best) :
    ∃ m, smaller (some best) next = some m ∧ IsFirstSmallest (seen ++ [next]) m := by
  have hrank : ∀ a ∈ seen ++ [next], ∀ b ∈ seen ++ [next],
      (a.area < b.area ↔ Number.rankOf a.area < Number.rankOf b.area) := by
    intro a ha b hb
    exact Number.lt_iff_rank_lt (hareas.area ha) (hareas.area hb)
  have hold : ∀ c ∈ seen, c ∈ seen ++ [next] := fun c hc => List.mem_append_left _ hc
  have hnext : next ∈ seen ++ [next] := List.mem_append_right _ List.mem_cons_self
  have hbest := hold best h.mem
  obtain ⟨before, after, hsplit, hbefore, hleast⟩ := h
  by_cases hsmaller : next.area < best.area
  · have hless : ∀ c ∈ seen, next.area < c.area := by
      intro c hc
      have hc' := hleast c hc
      rw [hrank c (hold c hc) best hbest, not_lt] at hc'
      rw [hrank next hnext best hbest] at hsmaller
      rw [hrank next hnext c (hold c hc)]
      exact lt_of_lt_of_le hsmaller hc'
    refine ⟨next, by rw [smaller, if_pos hsmaller], seen, [], rfl, hless, ?_⟩
    intro c hc
    rw [hrank c hc next hnext]
    rcases List.mem_append.mp hc with hseen | hlast
    · exact lt_asymm ((hrank next hnext c hc).mp (hless c hseen))
    · obtain rfl := List.mem_singleton.mp hlast
      exact lt_irrefl _
  · refine ⟨best, by rw [smaller, if_neg hsmaller], before, after ++ [next], ?_, hbefore, ?_⟩
    · rw [hsplit, List.append_assoc, List.cons_append]
    · intro c hc
      rcases List.mem_append.mp hc with hseen | hlast
      · exact hleast c hseen
      · obtain rfl := List.mem_singleton.mp hlast
        exact hsmaller

/-- **The search keeps the first of the smallest** of what it has seen. -/
theorem foldl_smaller {seen rest : List Node} {best : Node}
    (hareas : Node.HaveAreas (seen ++ rest)) (h : IsFirstSmallest seen best) :
    ∃ m, rest.foldl smaller (some best) = some m ∧ IsFirstSmallest (seen ++ rest) m := by
  induction rest generalizing seen best with
  | nil => exact ⟨best, rfl, by rwa [List.append_nil]⟩
  | cons next rest ih =>
    rw [List.append_cons] at hareas ⊢
    obtain ⟨m, hm, hfirst⟩ := isFirstSmallest_step
      (fun n hn => hareas n (List.mem_append_left _ hn)) h
    rw [List.foldl_cons, hm]
    exact ih hareas hfirst

theorem foldl_smaller_none {nodes : List Node} (hareas : Node.HaveAreas nodes)
    (hne : nodes ≠ []) :
    ∃ m, nodes.foldl smaller none = some m ∧ IsFirstSmallest nodes m := by
  cases nodes with
  | nil => exact absurd rfl hne
  | cons n rest =>
    have hone : IsFirstSmallest [n] n := by
      refine ⟨[], [], rfl, by simp, ?_⟩
      intro c hc
      obtain rfl := List.mem_singleton.mp hc
      have hnumber := hareas.area List.mem_cons_self
      rw [Number.lt_iff_rank_lt hnumber hnumber]
      exact lt_irrefl _
    exact foldl_smaller hareas hone

/-! ### Nesting does not count -/

/-- **How elements are nested does not matter** for which one lies under a point. -/
theorem nodeAt?_congr_elements {t t' : Tree}
    (h : t.nodes.map Node.element = t'.nodes.map Node.element) (p : Point) :
    (t.nodeAt? p).map Node.element = (t'.nodeAt? p).map Node.element := by
  have hnodes : List.Forall₂ (fun n n' => n.element = n'.element) t.nodes t'.nodes := by
    rw [← List.forall₂_eq_eq_eq] at h
    exact List.forall₂_map_right_iff.mp (List.forall₂_map_left_iff.mp h)
  have hcovers : ∀ {n n' : Node}, n.element = n'.element → n.covers p = n'.covers p := by
    intro n n' heq
    rw [Node.covers, Node.covers, heq]
  have harea : ∀ {n n' : Node}, n.element = n'.element → n.area = n'.area := by
    intro n n' heq
    rw [Node.area, Node.area, heq]
  have hcandidates : List.Forall₂ (fun n n' => n.element = n'.element)
      (t.candidates p) (t'.candidates p) := by
    apply List.rel_filter _ hnodes
    intro n n' heq
    exact Bool.eq_iff_iff.mp (hcovers heq)
  have hroot : t.root.element = t'.root.element := by
    have hfirst := congrArg List.head? h
    rw [nodes, nodes, Node.all_eq_preorder, Node.all_eq_preorder] at hfirst
    cases hr : t.root with
    | node e children =>
      cases hr' : t'.root with
      | node e' children' =>
        rw [hr, hr', Node.preorder, Node.preorder] at hfirst
        exact Option.some.inj hfirst
  -- A step from candidates with the same elements leads to candidates with the same elements.
  have hsearch : ((t.candidates p).foldl smaller none).map Node.element =
      ((t'.candidates p).foldl smaller none).map Node.element := by
    refine List.rel_foldl
      (P := fun b b' : Option Node => b.map Node.element = b'.map Node.element)
      (R := fun n n' : Node => n.element = n'.element) ?_ rfl hcandidates
    intro best best' hbest n n' heq
    cases best with
    | none =>
      cases best' with
      | none => exact congrArg some heq
      | some b' => cases hbest
    | some b =>
      cases best' with
      | none => cases hbest
      | some b' =>
        have hb := Option.some.inj hbest
        rw [smaller, smaller, harea heq, harea hb]
        split
        · exact congrArg some heq
        · exact congrArg some hb
  rw [nodeAt?, nodeAt?, hcovers hroot]
  split
  · exact hsearch
  · rfl

/-- **Hit-testing returns the first smallest box**: nothing outside the box of the root, otherwise
the first of the smallest candidates.  Candidates are the nodes, in depth-first order, that have a
box in which the point lies. -/
theorem nodeAt?_first_smallest (t : Tree) (p : Point) (hareas : Node.HaveAreas t.nodes) :
    (t.candidates p = t.root.preorder.filter fun n => n.element.rect.any fun r => r.contains p) ∧
    (t.nodeAt? p = none ↔ ∀ r, t.root.element.rect = some r → r.contains p = false) ∧
    (∀ m, t.nodeAt? p = some m ↔
      (∃ r, t.root.element.rect = some r ∧ r.contains p = true) ∧
        IsFirstSmallest (t.candidates p) m) ∧
    ∀ t' : Tree, t'.nodes.map Node.element = t.nodes.map Node.element →
      (t'.nodeAt? p).map Node.element = (t.nodeAt? p).map Node.element := by
  have hroot : t.root.covers p = true → t.candidates p ≠ [] := by
    intro hcovers
    exact List.ne_nil_of_mem (List.mem_filter.mpr ⟨t.root.self_mem_all, hcovers⟩)
  have hcandidates : Node.HaveAreas (t.candidates p) :=
    fun n hn => hareas n (List.mem_of_mem_filter hn)
  refine ⟨?_, ?_, ?_, fun t' h => nodeAt?_congr_elements h p⟩
  · rw [candidates, nodes, Node.all_eq_preorder]
    apply List.filter_congr
    intro n _
    rw [Node.covers]
    cases n.element.rect with
    | none => rfl
    | some r => rfl
  · rw [nodeAt?]
    by_cases hcovers : t.root.covers p = true
    · obtain ⟨m, hm, -⟩ := foldl_smaller_none hcandidates (hroot hcovers)
      obtain ⟨r, hr, hcontains⟩ := Node.covers_iff.mp hcovers
      rw [if_pos hcovers, hm]
      simp [hr, hcontains]
    · rw [if_neg hcovers]
      simpa [Node.covers_iff] using hcovers
  · intro m
    rw [nodeAt?, ← Node.covers_iff]
    by_cases hcovers : t.root.covers p = true
    · obtain ⟨found, hfound, hfirst⟩ := foldl_smaller_none hcandidates (hroot hcovers)
      rw [if_pos hcovers, hfound]
      constructor
      · intro h
        obtain rfl := Option.some.inj h
        exact ⟨hcovers, hfirst⟩
      · rintro ⟨-, hm⟩
        rw [hfirst.unique hm]
    · simp [hcovers]

def box (reference : String) (r : Rect) (children : List Node) : Node :=
  .node ⟨reference, "View", some r, [], none, none⟩ children

/-- A small box with a line in it that is longer than the screen. -/
def lineBox : Node :=
  box "first" ⟨5, 5, 4, 4⟩ [box "line" ⟨0, 6, 30, 1⟩ []]

/-- A group that has no box itself, with two boxes of the same size at the same place. -/
def boxGroup : Node :=
  .node ⟨"group", "Group", none, [], none, none⟩ [lineBox, box "second" ⟨5, 5, 4, 4⟩ []]

def overlappingScreen : Node :=
  box "screen" ⟨0, 0, 20, 20⟩ [boxGroup]

/-- Of two boxes of the same size the first is meant, and neither the line in it nor the screen. -/
theorem nodeAt?_first_smallest_overlapping :
    ∃ t, ofNode overlappingScreen = .ok t ∧ Node.HaveAreas t.nodes ∧
      t.nodeAt? ⟨7, 7⟩ = some lineBox := by
  have hpreorder : overlappingScreen.preorder = [overlappingScreen, boxGroup, lineBox,
      box "line" ⟨0, 6, 30, 1⟩ [], box "second" ⟨5, 5, 4, 4⟩ []] := by
    simp [overlappingScreen, boxGroup, lineBox, box, Node.preorder]
  obtain ⟨t, ht⟩ : ∃ t, ofNode overlappingScreen = .ok t :=
    ⟨_, assemble_eq_ok_iff.mpr
      ⟨rfl, by rw [Node.all_eq_preorder, hpreorder]; decide, by simp, rfl⟩⟩
  have hroot : t.root = overlappingScreen := (assemble_ok ht).1
  have hareas : Node.HaveAreas t.nodes := by
    rw [nodes, hroot, Node.all_eq_preorder, hpreorder]
    intro n hn r hr
    simp only [List.mem_cons, List.not_mem_nil, or_false] at hn
    rcases hn with rfl | rfl | rfl | rfl | rfl <;> cases hr <;> decide
  obtain ⟨hcandidates, -, hfound, -⟩ := nodeAt?_first_smallest t ⟨7, 7⟩ hareas
  rw [hroot, hpreorder] at hcandidates
  have hcovering : t.candidates ⟨7, 7⟩ = [overlappingScreen, lineBox,
      box "line" ⟨0, 6, 30, 1⟩ [], box "second" ⟨5, 5, 4, 4⟩ []] := hcandidates
  refine ⟨t, ht, hareas,
    (hfound lineBox).mpr ⟨⟨⟨0, 0, 20, 20⟩, by rw [hroot]; rfl, by decide⟩, ?_⟩⟩
  rw [hcovering]
  refine ⟨[overlappingScreen], [box "line" ⟨0, 6, 30, 1⟩ [], box "second" ⟨5, 5, 4, 4⟩ []], rfl, ?_, ?_⟩
  · intro c hc
    obtain rfl := List.mem_singleton.mp hc
    decide
  · intro c hc
    simp only [List.mem_cons, List.not_mem_nil, or_false] at hc
    rcases hc with rfl | rfl | rfl | rfl <;> decide

end Tree

end ScreenInspector
