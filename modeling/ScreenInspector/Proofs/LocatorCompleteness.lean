/-
  ScreenInspector/Proofs/LocatorCompleteness.lean
  ===============================================
  **Every node of a written tree has a locator.**

  `synthesize_of_places` is about any evaluator that answers a base expression with a list and each
  indexed one with the member at its place: the search then ends at the place of the wanted
  reference, provided that it does not stand earlier in the list.  `synthesize_among` reads off what
  is known of the locator of a node.  A tree whose source text was written from its nodes answers in
  this way, and its references are all different, so `synthesize_written` finds a locator for each
  of its nodes.

  The elements of the tag of the root element are left out, because the root element of the source
  text has that tag as well.
-/
import ScreenInspector.Proofs.SourceQueries

namespace ScreenInspector.Locator

/-! ### The search -/

section Search

variable {v : Evaluator} {reference base : String} {count : Nat}

/-- A search ends at the first position whose expression selects exactly the reference. -/
theorem refine_of_first {k left i : Nat} {asked : Questions}
    (hbefore : ∀ j < k, ∀ asked, ∃ found,
      v.answer asked (indexed base (i + j)) = .ok found ∧ found ≠ [reference])
    (hfound : ∀ asked, v.answer asked (indexed base (i + k)) = .ok [reference])
    (hleft : k < left) :
    (refine v reference base count left i asked).1 = .ok ⟨indexed base (i + k), count, true⟩ := by
  induction k generalizing left i asked with
  | zero =>
    obtain ⟨left, rfl⟩ := Nat.exists_eq_add_of_le' hleft
    rw [Nat.add_zero] at hfound
    rw [refine]
    simp only [hfound asked, if_true, Nat.add_zero]
  | succ k ih =>
    obtain ⟨left, rfl⟩ := Nat.exists_eq_add_of_le' (Nat.lt_of_le_of_lt (Nat.zero_le _) hleft)
    obtain ⟨found, hanswer, hne⟩ := hbefore 0 (Nat.succ_pos k) asked
    have hlater : ∀ j < k, ∀ asked, ∃ found,
        v.answer asked (indexed base (i + 1 + j)) = .ok found ∧ found ≠ [reference] := by
      intro j hj
      have h := hbefore (j + 1) (Nat.succ_lt_succ hj)
      rwa [Nat.add_comm j 1, ← Nat.add_assoc] at h
    have hlast : ∀ asked, v.answer asked (indexed base (i + 1 + k)) = .ok [reference] := by
      rwa [Nat.add_assoc, Nat.add_comm 1 k]
    have hnext : (refine v reference base count left (i + 1) (indexed base i :: asked)).1 =
        .ok ⟨indexed base (i + 1 + k), count, true⟩ :=
      ih hlater hlast (Nat.lt_of_succ_lt_succ hleft)
    rw [Nat.add_zero] at hanswer
    rw [refine]
    simp only [hanswer, if_neg hne, hnext, Nat.add_assoc, Nat.add_comm 1 k]

/-- **A search among places succeeds**: with a base expression that selects some references, and
with each of them selected by its place, the locator of a reference is its place, or the base
expression if that selects nothing else. -/
theorem synthesize_of_places {e : Element} {asked : Questions} {before after : List String}
    (hbase : v.answer asked (baseExpression e) = .ok (before ++ e.reference :: after))
    (hplaces : ∀ asked i, 0 < i → i ≤ before.length + 1 →
      v.answer asked (indexed (baseExpression e) i) =
        .ok (before ++ e.reference :: after)[i - 1]?.toList)
    (hfresh : e.reference ∉ before) :
    (synthesize v asked e).1 =
      if before = [] ∧ after = [] then .ok ⟨baseExpression e, 1, false⟩
      else .ok ⟨indexed (baseExpression e) (before.length + 1),
        (before ++ e.reference :: after).length, true⟩ := by
  have hsearch : ∀ asked, (refine v e.reference (baseExpression e)
      (before ++ e.reference :: after).length (before ++ e.reference :: after).length 1 asked).1 =
      .ok ⟨indexed (baseExpression e) (before.length + 1),
        (before ++ e.reference :: after).length, true⟩ := by
    intro asked
    rw [Nat.add_comm before.length 1]
    apply refine_of_first
    · intro j hj asked
      refine ⟨_, hplaces asked (1 + j) (by omega) (by omega), ?_⟩
      rw [Nat.add_sub_cancel_left, List.getElem?_append_left hj, List.getElem?_eq_getElem hj]
      intro heq
      apply hfresh
      rw [← (List.cons.inj heq).1]
      exact List.getElem_mem hj
    · intro asked
      rw [hplaces asked _ (by omega) (by omega)]
      simp
    · simp
  rw [synthesize, hbase]
  -- The search only looks whether the answer has one member or more.
  cases before with
  | nil =>
    cases after with
    | nil => simp
    | cons a rest => simpa using hsearch (baseExpression e :: asked)
  | cons b more =>
    cases more with
    | nil => simpa using hsearch (baseExpression e :: asked)
    | cons b' more => simpa using hsearch (baseExpression e :: asked)

/-- **The locator of a node among others**, with an evaluator that answers the base expression with
all of them and each indexed one with the node at its place. -/
theorem synthesize_among {n : Node} {before after : List Node}
    (hbase : ∀ asked, v.answer asked (baseExpression n.element) =
      .ok ((before ++ n :: after).map Node.reference))
    (hplaces : ∀ asked i, 0 < i → i ≤ before.length + 1 →
      v.answer asked (indexed (baseExpression n.element) i) =
        .ok ((before ++ n :: after).map Node.reference)[i - 1]?.toList)
    (hfresh : n.reference ∉ before.map Node.reference) (asked : Questions) :
    ∃ l : Locator, (synthesize v asked n.element).1 = .ok l ∧
      l.baseMatches = (before ++ n :: after).length ∧
      (l.isRefined = true ↔ 1 < l.baseMatches) ∧
      (l.isRefined = false → l.expression = baseExpression n.element) ∧
      (l.isRefined = true →
        l.expression = indexed (baseExpression n.element) (before.length + 1)) ∧
      ∀ asked', v.answer asked' l.expression = .ok [n.reference] := by
  simp only [List.map_append, List.map_cons] at hbase hplaces
  have hresult := synthesize_of_places (hbase asked)
    (fun asked i hpos hi => hplaces asked i hpos (by simpa using hi)) hfresh
  by_cases halone : before = [] ∧ after = []
  · obtain ⟨rfl, rfl⟩ := halone
    refine ⟨⟨baseExpression n.element, 1, false⟩, ?_, rfl, ?_, fun _ => rfl, ?_, hbase⟩
    · simpa using hresult
    · simp
    · exact fun hrefined => Bool.noConfusion hrefined
  · have hlong : 1 < (before ++ n :: after).length := by
      rw [List.length_append, List.length_cons]
      by_contra hshort
      exact halone ⟨List.eq_nil_of_length_eq_zero (by omega),
        List.eq_nil_of_length_eq_zero (by omega)⟩
    refine ⟨⟨indexed (baseExpression n.element) (before.length + 1),
      (before ++ n :: after).length, true⟩, ?_, rfl, ?_, ?_, fun _ => rfl, ?_⟩
    · rw [hresult, if_neg]
      · simp
      · simpa using halone
    · exact ⟨fun _ => hlong, fun _ => rfl⟩
    · exact fun hplain => Bool.noConfusion hplain
    · intro asked'
      rw [hplaces asked' _ (Nat.succ_pos _) (Nat.le_refl _)]
      simp

end Search

/-! ### Trees whose source text was written from their nodes -/

/-- **Every node of a written tree has a locator.**  It counts the nodes that share the tag and the
identity of the node, has the position of the node among them if there are several, and selects
exactly the node. -/
theorem synthesize_written {root : Node} {served : Option String} {kind : String} {t : Tree}
    (h : Tree.assemble root served kind = .ok t) (hsource : t.source = root.sourceText)
    (hcarried : ∀ m ∈ t.nodes, m.element.IsCarried)
    (hlimit : t.nodes.length < Number.exactLimit)
    {n : Node} (hn : n ∈ t.nodes) (htag : n.element.tag ≠ wrapperTag) (asked : Questions) :
    ∃ l : Locator, (synthesize t.evaluator asked n.element).1 = .ok l ∧
      l.baseMatches =
        (t.nodes.filter fun m => sharesIdentity n.element m.element).length ∧
      (l.isRefined = true ↔ 1 < l.baseMatches) ∧
      (l.isRefined = false → l.expression = baseExpression n.element) ∧
      (l.isRefined = true → ∃ before after,
        t.nodes.filter (fun m => sharesIdentity n.element m.element) = before ++ n :: after ∧
        l.expression = indexed (baseExpression n.element) (before.length + 1)) ∧
      ∀ asked', t.evaluator.answer asked' l.expression = .ok [n.reference] := by
  have hroot : t.root = root := (Tree.assemble_ok h).1
  have hevaluator : t.evaluator = Evaluator.ofSource root.sourceText := by
    rw [Tree.evaluator, hsource]
  have hsharing : t.nodes.filter (fun m => sharesIdentity n.element m.element) =
      root.sharing n.element := by
    rw [Tree.nodes, hroot, Node.sharing]
  have hnodup : ((root.sharing n.element).map Node.reference).Nodup := by
    have hsublist : (root.sharing n.element).Sublist t.nodes := by
      rw [← hsharing]
      exact List.filter_sublist
    exact (Tree.references_nodup h).sublist (hsublist.map _)
  have hmem : n ∈ root.sharing n.element := by
    rw [← hsharing, List.mem_filter]
    exact ⟨hn, sharesIdentity_self n.element⟩
  have hlength : (root.sharing n.element).length ≤ t.nodes.length := by
    rw [← hsharing]
    exact List.length_filter_le _ _
  obtain ⟨before, after, hsplit⟩ := List.append_of_mem hmem
  rw [Tree.nodes, hroot] at hcarried hlimit hlength
  have hbase : ∀ asked, t.evaluator.answer asked (baseExpression n.element) =
      .ok ((before ++ n :: after).map Node.reference) := by
    intro asked
    rw [hevaluator, root.answer_baseExpression hcarried htag, hsplit]
  have hplaces : ∀ asked i, 0 < i → i ≤ before.length + 1 →
      t.evaluator.answer asked (indexed (baseExpression n.element) i) =
        .ok ((before ++ n :: after).map Node.reference)[i - 1]?.toList := by
    intro asked i hpos hi
    have hi' : i < Number.exactLimit := by
      rw [hsplit, List.length_append, List.length_cons] at hlength
      omega
    rw [hevaluator, root.answer_indexed hcarried hlimit htag hpos hi', hsplit]
  have hfresh : n.reference ∉ before.map Node.reference := by
    rw [hsplit, List.map_append, List.map_cons] at hnodup
    intro hbefore
    exact (List.nodup_append.mp hnodup).2.2 _ hbefore _ List.mem_cons_self rfl
  obtain ⟨l, hl, hcount, hrefined, hplain, hplace, hanswer⟩ :=
    synthesize_among hbase hplaces hfresh asked
  rw [hsharing, hsplit]
  exact ⟨l, hl, hcount, hrefined, hplain, fun h => ⟨before, after, rfl, hplace h⟩, hanswer⟩

/-- A button with an identity and a label that has characters of markup. -/
def markedButton : Node :=
  .node ⟨"second", "android.widget.Button", none, [("id", "ok"), ("label", "<OK> & \x22go\x22")],
    none, none⟩ []

/-- A frame with two buttons of the same identity. -/
def twoButtons : Node :=
  .node ⟨"frame", "android.widget.FrameLayout", some ⟨0, 0, 100, 100⟩, [], none, none⟩
    [.node ⟨"first", "android.widget.Button", none, [("id", "ok")], none, none⟩ [], markedButton]

/-- The second of two buttons with the same identity has a locator with a position. -/
theorem synthesize_twoButtons :
    ∃ t, Tree.assemble twoButtons none Tree.webViewKind = .ok t ∧
      ∃ l : Locator, (synthesize t.evaluator [] markedButton.element).1 = .ok l ∧
        l.baseMatches = 2 ∧ l.isRefined = true ∧
        ∀ asked, t.evaluator.answer asked l.expression = .ok ["second"] := by
  have hassemble : Tree.assemble twoButtons none Tree.webViewKind = .ok ⟨twoButtons,
      twoButtons.sourceText, [("frame", []), ("first", [0]), ("second", [1])], none⟩ := by
    simp [Tree.assemble, Tree.webViewKind, twoButtons, markedButton, Node.withPaths,
      Node.walk_cons, Node.walk_nil, Node.labelled, Node.children, Node.element, Node.reference,
      PathIndex.extend, List.lookup]
  have hcarried : ∀ m ∈ twoButtons.all, m.element.IsCarried := by
    simp only [twoButtons, markedButton, Node.forall_mem_all, List.forall_mem_cons]
    exact ⟨by decide, by decide, by decide, by simp⟩
  have hlimit : twoButtons.all.length < Number.exactLimit := by
    simp [twoButtons, markedButton, Node.all_node, Number.exactLimit]
  have hmem : markedButton ∈ twoButtons.all := by
    simp [twoButtons, Node.all_node, Node.self_mem_all]
  have htag : markedButton.element.tag ≠ wrapperTag := by decide
  obtain ⟨l, hl, hcount, hrefined, -, -, hanswer⟩ :=
    synthesize_written hassemble rfl hcarried hlimit hmem htag []
  have hbuttons : l.baseMatches = 2 := by
    rw [hcount]
    cbv
  exact ⟨_, hassemble, l, hl, hbuttons, hrefined.mpr (by omega), hanswer⟩

end ScreenInspector.Locator
