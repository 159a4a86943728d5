/-
  ScreenInspector/Proofs/ListedTargets.lean
  =========================================
  **Which of the elements that a base expression lists get a locator.**

  A search tries as many positions as the base expression lists references, but a position counts
  all selected elements, also those without a reference.  With a consistent evaluator that answers
  these positions it succeeds iff one of them isolates the element (`succeeds_iff`).  In a document
  every listed reference is isolated by the position of its element
  (`Evaluator.mem_references_take`), which is among those that are tried iff not too many elements
  without a reference come before it (`Tree.synthesize_listed`).

  In a written source text the root element alone has no reference.  So every listed element is
  found, unless it has the tag of the root element and no identity
  (`Node.succeeds_of_mem_answer`).  The last of several such elements is missed
  (`Node.synthesize_last_wrapperTag`).
-/
import ScreenInspector.Proofs.LocatorSearch
import ScreenInspector.Proofs.SourceQueries

namespace ScreenInspector

open Markup (Document Label)
open Evaluator (references)

/-! ### Positions that isolate an element -/

namespace Locator

/-- A search ends with an expression that selects the element and no other. -/
def Succeeds (v : Evaluator) (asked : Questions) (e : Element) : Prop :=
  ∃ l, (synthesize v asked e).1 = .ok l ∧
    ∀ asked', v.answer asked' l.expression = .ok [e.reference]

section Consistent

variable {v : Evaluator} {asked : Questions} {e : Element} {found : List String}

theorem answerAt_of_pos (hv : v.IsConsistent) (asked' : Questions) {base : String} {i : Nat}
    (hi : 0 < i) : answerAt v base asked i = v.answer asked' (indexed base i) := by
  rw [answerAt, question_of_pos base hi]
  exact hv _ _ _

/-- What a search found selects the element and no other, whenever it is asked. -/
theorem answer_of_ok (hv : v.IsConsistent) {l : Locator} (h : (synthesize v asked e).1 = .ok l)
    (asked' : Questions) : v.answer asked' l.expression = .ok [e.reference] := by
  obtain ⟨last, -, hcourse⟩ := exists_course v asked e
  obtain ⟨hanswer, hquestion, -⟩ := (hcourse.ok_iff l).mp h
  rw [hv asked' (askedBefore (baseExpression e) asked last), hquestion]
  exact hanswer

theorem succeeds_of_ok (hv : v.IsConsistent) {l : Locator}
    (h : (synthesize v asked e).1 = .ok l) : Succeeds v asked e :=
  ⟨l, h, answer_of_ok hv h⟩

/-- An element that is the only one listed is found at once. -/
theorem succeeds_of_only (hv : v.IsConsistent)
    (hbase : v.answer asked (baseExpression e) = .ok [e.reference]) : Succeeds v asked e := by
  have hresult : (synthesize v asked e).1 = .ok ⟨baseExpression e, 1, false⟩ := by
    simp only [synthesize, hbase, if_true]
  exact succeeds_of_ok hv hresult

/-- The search passes over no position that isolates the element. -/
theorem succeeds_of_position (hv : v.IsConsistent)
    (hbase : v.answer asked (baseExpression e) = .ok found) (hlong : 1 < found.length)
    (hanswers : ∀ i, 0 < i → i ≤ found.length →
      ∃ more, v.answer asked (indexed (baseExpression e) i) = .ok more)
    {i : Nat} (hpos : 0 < i) (hi : i ≤ found.length)
    (hisolates : v.answer asked (indexed (baseExpression e) i) = .ok [e.reference]) :
    Succeeds v asked e := by
  obtain ⟨last, -, hcourse⟩ := exists_course v asked e
  have hzero : answerAt v (baseExpression e) asked 0 = .ok found := hbase
  have hhere : answerAt v (baseExpression e) asked i = .ok [e.reference] := by
    rw [answerAt_of_pos hv asked hpos, hisolates]
  -- Since the search does not end early, it ends at this position or before it.
  have hlast : answerAt v (baseExpression e) asked last = .ok [e.reference] := by
    rcases hcourse.ended with ⟨fault, hfault⟩ | hlast | ⟨more, hmore, hend⟩
    · exfalso
      rcases Nat.eq_zero_or_pos last with rfl | hlast
      · simp [hzero] at hfault
      · obtain ⟨more, hmore, -, hbound⟩ := hcourse.several hlast
        obtain rfl : found = more := Except.ok.inj (hzero.symm.trans hmore)
        obtain ⟨other, hother⟩ := hanswers last hlast hbound
        rw [answerAt_of_pos hv asked hlast, hother] at hfault
        cases hfault
    · exact hlast
    · obtain rfl : found = more := Except.ok.inj (hzero.symm.trans hmore)
      obtain rfl : last = found.length := by omega
      rcases Nat.eq_or_lt_of_le hi with rfl | hlt
      · exact hhere
      · obtain ⟨other, hother, hne⟩ := hcourse.passed i hpos hlt
        exact absurd (Except.ok.inj (hother.symm.trans hhere)) hne
  apply succeeds_of_ok hv
  exact (hcourse.ok_iff ⟨question (baseExpression e) last, found.length, true⟩).mpr
    ⟨hlast, rfl, found, hzero, rfl, by simp [hlong]⟩

/-- Without such a position the search reports the ambiguity of the base expression. -/
theorem synthesize_of_no_position (hv : v.IsConsistent)
    (hbase : v.answer asked (baseExpression e) = .ok found) (hlong : 1 < found.length)
    (hothers : ∀ i, 0 < i → i ≤ found.length →
      IsOther e.reference (v.answer asked (indexed (baseExpression e) i))) :
    (synthesize v asked e).1 = .error (.ambiguous (baseExpression e) found.length) := by
  obtain ⟨last, -, hcourse⟩ := exists_course v asked e
  refine (hcourse.exhausted found hbase hlong ?_).2
  intro i hpos hi
  rw [answerAt_of_pos hv asked hpos]
  exact hothers i hpos hi

/-- **A search succeeds iff one of the positions that it tries isolates the element.** -/
theorem succeeds_iff (hv : v.IsConsistent)
    (hbase : v.answer asked (baseExpression e) = .ok found) (hlong : 1 < found.length)
    (hanswers : ∀ i, 0 < i → i ≤ found.length →
      ∃ more, v.answer asked (indexed (baseExpression e) i) = .ok more) :
    (Succeeds v asked e ↔ ∃ i, 0 < i ∧ i ≤ found.length ∧
      v.answer asked (indexed (baseExpression e) i) = .ok [e.reference]) ∧
    (¬ Succeeds v asked e →
      (synthesize v asked e).1 = .error (.ambiguous (baseExpression e) found.length)) := by
  by_cases hposition : ∃ i, 0 < i ∧ i ≤ found.length ∧
      v.answer asked (indexed (baseExpression e) i) = .ok [e.reference]
  · obtain ⟨i, hpos, hi, hisolates⟩ := hposition
    have hsucceeds := succeeds_of_position hv hbase hlong hanswers hpos hi hisolates
    exact ⟨⟨fun _ => ⟨i, hpos, hi, hisolates⟩, fun _ => hsucceeds⟩,
      fun hfails => absurd hsucceeds hfails⟩
  · have hresult := synthesize_of_no_position hv hbase hlong (by
      intro i hpos hi
      obtain ⟨more, hmore⟩ := hanswers i hpos hi
      refine ⟨more, hmore, ?_⟩
      rintro rfl
      exact hposition ⟨i, hpos, hi, hmore⟩)
    have hfails : ¬ Succeeds v asked e := by
      rintro ⟨l, hl, -⟩
      simp [hresult] at hl
    exact ⟨⟨fun hsucceeds => absurd hsucceeds hfails, fun h => absurd h hposition⟩,
      fun _ => hresult⟩

end Consistent

end Locator

/-! ### References by position -/

theorem Markup.Document.reference?_label (d : Document) (m : Nat) :
    (d.label m).reference? = d.attribute? m "ref" := by
  cases hlabel : d.label m <;>
  simp [Label.reference?, Document.attribute?, Document.attributes, hlabel]

namespace Evaluator

variable {d : Document} {ids : List Nat} {reference : String}

theorem references_eq_filterMap (d : Document) (ids : List Nat) :
    references d ids = ids.filterMap fun m => d.attribute? m "ref" := by
  rw [references_eq, List.filterMap_map]
  exact congrArg (fun f => ids.filterMap f) (funext d.reference?_label)

/-- **A reference is listed for the first so many nodes iff one of their positions isolates it.** -/
theorem mem_references_take {count : Nat} :
    reference ∈ references d (ids.take count) ↔
      ∃ i, 0 < i ∧ i ≤ count ∧ references d ids[i - 1]?.toList = [reference] := by
  simp only [references_eq_filterMap]
  constructor
  · intro h
    obtain ⟨m, hm, hreference⟩ := List.mem_filterMap.mp h
    obtain ⟨i, hi, rfl⟩ := List.mem_take_iff_getElem.mp hm
    refine ⟨i + 1, Nat.succ_pos i, by omega, ?_⟩
    have hget : ids[i]? = some ids[i] := List.getElem?_eq_getElem (by omega)
    simp [hget, hreference]
  · rintro ⟨i, hpos, hi, hisolates⟩
    cases hget : ids[i - 1]? with
    | none => simp [hget] at hisolates
    | some m =>
      obtain ⟨hlt, rfl⟩ := List.getElem?_eq_some_iff.mp hget
      refine List.mem_filterMap.mpr ⟨_, List.mem_take_iff_getElem.mpr ⟨i - 1, by omega, rfl⟩, ?_⟩
      cases hreference : d.attribute? ids[i - 1] "ref" with
      | none => simp [hget, hreference] at hisolates
      | some found => simpa [hget, hreference] using hisolates

theorem length_references_le : (references d ids).length ≤ ids.length := by
  rw [references_eq_filterMap]
  exact List.length_filterMap_le _ _

/-- If no selected node is without a reference, there are as many references as nodes. -/
theorem length_references (h : ∀ m ∈ ids, (d.attribute? m "ref").isSome = true) :
    (references d ids).length = ids.length := by
  rw [references_eq_filterMap]
  exact List.filterMap_length_eq_length.mpr h

end Evaluator

/-! ### Listed elements of a document -/

section Documents

open Locator

variable {source : String} {d : Document} {e : Element} {ids : List Nat} {asked : Questions}

theorem Locator.length_selected_le (d : Document) (e : Element) :
    ((List.range d.size).filter fun m => selects e (d.label m)).length ≤ d.size := by
  refine (List.length_filter_le _ _).trans_eq ?_
  exact List.length_range

theorem Evaluator.eq_references_of_answer (hread : Document.read source = .ok d)
    (hids : (baseExpr e).meaning d ⟨0, 1, 1⟩ = .ok (.nodes ids)) {found : List String}
    (hanswer : (ofSource source).answer asked (baseExpression e) = .ok found) :
    found = references d ids :=
  Except.ok.inj (hanswer.symm.trans (answer_baseExpression hread hids))

/-- Which positions isolate an element that a document lists. -/
theorem Evaluator.exists_position_iff (hread : Document.read source = .ok d)
    (hids : (baseExpr e).meaning d ⟨0, 1, 1⟩ = .ok (.nodes ids))
    (hlimit : ids.length < Number.exactLimit) {count : Nat} (hcount : count ≤ ids.length) :
    (∃ i, 0 < i ∧ i ≤ count ∧
      (ofSource source).answer asked (indexed (baseExpression e) i) = .ok [e.reference]) ↔
    e.reference ∈ references d (ids.take count) := by
  rw [mem_references_take]
  refine exists_congr fun i => and_congr_right fun hpos => and_congr_right fun hi => ?_
  rw [answer_indexed hread hids hlimit hpos (by omega), Except.ok.injEq]

/-- **Which listed elements are found**: the only one, and those whose reference is listed for as
many of the selected nodes as there are references. -/
theorem Evaluator.succeeds_listed (hread : Document.read source = .ok d)
    (hids : (baseExpr e).meaning d ⟨0, 1, 1⟩ = .ok (.nodes ids))
    (hlimit : ids.length < Number.exactLimit) (hlisted : e.reference ∈ references d ids)
    (asked : Questions) :
    (Succeeds (ofSource source) asked e ↔ (references d ids).length = 1 ∨
      e.reference ∈ references d (ids.take (references d ids).length)) ∧
    (¬ Succeeds (ofSource source) asked e →
      (synthesize (ofSource source) asked e).1 =
        .error (.ambiguous (baseExpression e) (references d ids).length)) := by
  have hv := isConsistent_ofSource source
  have hbase : (ofSource source).answer asked (baseExpression e) = .ok (references d ids) :=
    answer_baseExpression hread hids
  have hcount : (references d ids).length ≤ ids.length := length_references_le
  by_cases honly : (references d ids).length = 1
  · obtain ⟨only, hfound⟩ := List.length_eq_one_iff.mp honly
    obtain rfl : e.reference = only := by simpa [hfound] using hlisted
    have hsucceeds := succeeds_of_only hv (hbase.trans (congrArg Except.ok hfound))
    exact ⟨⟨fun _ => Or.inl honly, fun _ => hsucceeds⟩, fun hfails => absurd hsucceeds hfails⟩
  · have hlong : 1 < (references d ids).length := by
      have hpos := List.length_pos_of_mem hlisted
      omega
    have hanswers : ∀ i, 0 < i → i ≤ (references d ids).length →
        ∃ more, (ofSource source).answer asked (indexed (baseExpression e) i) = .ok more :=
      fun i hpos hi => ⟨_, answer_indexed hread hids hlimit hpos (by omega)⟩
    obtain ⟨hiff, hfails⟩ := succeeds_iff hv hbase hlong hanswers
    rw [exists_position_iff hread hids hlimit hcount] at hiff
    exact ⟨hiff.trans (or_iff_right honly).symm, hfails⟩

theorem Evaluator.succeeds_of_references (hread : Document.read source = .ok d)
    (hids : (baseExpr e).meaning d ⟨0, 1, 1⟩ = .ok (.nodes ids))
    (hlimit : ids.length < Number.exactLimit) (hlisted : e.reference ∈ references d ids)
    (hreferences : ∀ m ∈ ids, (d.attribute? m "ref").isSome = true) :
    Succeeds (ofSource source) asked e := by
  refine (succeeds_listed hread hids hlimit hlisted asked).1.mpr (Or.inr ?_)
  rwa [length_references hreferences, List.take_length]

end Documents

open Locator (Succeeds synthesize baseExpression baseExpr identity? selects indexed)

/-- **Which listed elements of a tree are found.**  A listed element is isolated by some position of
the base expression.  The search finds it iff it is the only one listed or one of the first
positions isolates it, as many as there are references; so it misses none if every selected element
has a reference.  The others are reported as ambiguous. -/
theorem Tree.synthesize_listed {t : Tree} {e : Element} {asked : Questions} {found : List String}
    (hanswer : t.evaluator.answer asked (baseExpression e) = .ok found)
    (hlisted : e.reference ∈ found) :
    ∃ d expr selected, Document.read t.source = .ok d ∧
      Expression.Expr.parse (baseExpression e) = .ok expr ∧
      expr.evaluate d = .ok (.nodes selected) ∧ found = references d selected ∧
      (d.size < Number.exactLimit →
        (∃ i, 0 < i ∧ i ≤ selected.length ∧
          t.evaluator.answer asked (indexed (baseExpression e) i) = .ok [e.reference]) ∧
        (Succeeds t.evaluator asked e ↔
          found.length = 1 ∨ e.reference ∈ references d (selected.take found.length)) ∧
        ((∀ m ∈ selected, (d.attribute? m "ref").isSome = true) →
          Succeeds t.evaluator asked e) ∧
        (¬ Succeeds t.evaluator asked e → (synthesize t.evaluator asked e).1 =
          .error (.ambiguous (baseExpression e) found.length))) := by
  obtain ⟨d, hread⟩ : ∃ d, Document.read t.source = .ok d := by
    cases hdocument : Document.read t.source with
    | ok d => exact ⟨d, rfl⟩
    | error fault =>
      simp [Tree.evaluator, Evaluator.ofSource, Evaluator.answerIn, hdocument,
        Locator.parse_baseExpression] at hanswer
  have hselected := Locator.meaning_baseExpr hread e ⟨0, 1, 1⟩
  have hfound := Evaluator.eq_references_of_answer hread hselected hanswer
  subst hfound
  refine ⟨d, baseExpr e, _, hread, Locator.parse_baseExpression e, hselected, rfl, ?_⟩
  intro hlimit
  have hlength := Nat.lt_of_le_of_lt (Locator.length_selected_le d e) hlimit
  obtain ⟨hsucceeds, hfails⟩ := Evaluator.succeeds_listed hread hselected hlength hlisted asked
  refine ⟨?_, hsucceeds, Evaluator.succeeds_of_references hread hselected hlength hlisted, hfails⟩
  apply (Evaluator.exists_position_iff hread hselected hlength (Nat.le_refl _)).mpr
  rwa [List.take_length]

/-! ### Listed elements of a written source text -/

section Written

variable {root : Node} {asked : Questions}

theorem Element.isSome_reference?_mirrored (e : Element) (tag : String) :
    (Label.element tag e.mirrored).reference?.isSome = true := by
  simp [Label.reference?, mirrored, sourcePairs, sourceAttributes]

/-- An element with another tag than the root element, or with an identity, shares nothing with the
root element. -/
theorem Locator.selects_wrapper_eq_false {e : Element}
    (h : e.tag ≠ wrapperTag ∨ (identity? e).isSome = true) :
    selects e (.element wrapperTag []) = false := by
  rcases h with htag | hidentity
  · exact selects_wrapper htag
  · obtain ⟨found, hfound⟩ := Option.isSome_iff_exists.mp hidentity
    simp [selects, hfound]

/-- **All listed elements of a written source text are found** that cannot be taken for its root
element. -/
theorem Node.succeeds_of_mem_answer (hlegal : ∀ m ∈ root.all, m.element.IsLegal)
    (hlimit : root.all.length + 2 < Number.exactLimit) {e : Element}
    (hother : e.tag ≠ wrapperTag ∨ (identity? e).isSome = true) {found : List String}
    (hanswer : (Evaluator.ofSource root.sourceText).answer asked (baseExpression e) = .ok found)
    (hlisted : e.reference ∈ found) :
    Succeeds (Evaluator.ofSource root.sourceText) asked e := by
  have hread := root.read_sourceText hlegal
  have hselected := Locator.meaning_baseExpr hread e ⟨0, 1, 1⟩
  have hfound := Evaluator.eq_references_of_answer hread hselected hanswer
  rw [hfound] at hlisted
  rw [← root.size_sourceDocument] at hlimit
  have hlength := Nat.lt_of_le_of_lt (Locator.length_selected_le root.sourceDocument e) hlimit
  refine Evaluator.succeeds_of_references hread hselected hlength hlisted ?_
  intro m hm
  obtain ⟨hrange, hselects⟩ := List.mem_filter.mp hm
  have hlabel := List.mem_map_of_mem (f := root.sourceDocument.label) hrange
  rw [root.labels_sourceDocument, List.mem_cons, List.mem_cons, List.mem_map] at hlabel
  rw [← Document.reference?_label]
  -- Neither the document nor the root element is selected.
  rcases hlabel with hdocument | hwrapper | ⟨n, -, hnode⟩
  · rw [hdocument] at hselects
    simp [selects] at hselects
  · rw [hwrapper, Locator.selects_wrapper_eq_false hother] at hselects
    cases hselects
  · rw [← hnode]
    exact n.element.isSome_reference?_mirrored n.element.tag

/-! ### Nodes with the tag of the root element -/

theorem Node.filterMap_reference?_label (nodes : List Node) :
    (nodes.map fun m => m.element.label).filterMap Label.reference? = nodes.map Node.reference := by
  rw [List.filterMap_map]
  simp [Element.reference?_label, Node.reference]

/-- The base expression of an element that can be taken for the root element selects that as well,
before all others. -/
theorem Node.meaning_wrapperTag (hcarried : ∀ m ∈ root.all, m.element.IsCarried) {e : Element}
    (htag : e.tag = wrapperTag) (hidentity : identity? e = none) :
    ∃ ids, (baseExpr e).meaning root.sourceDocument ⟨0, 1, 1⟩ = .ok (.nodes ids) ∧
      ids.map root.sourceDocument.label =
        .element wrapperTag [] :: (root.sharing e).map fun m => m.element.label := by
  obtain ⟨ids, hids, hlabels⟩ := root.meaning_baseExpr hcarried e ⟨0, 1, 1⟩
  have hwrapper : selects e (.element wrapperTag []) = true := by
    simp [selects, htag, hidentity]
  rw [List.filter_singleton, hwrapper, cond_true] at hlabels
  exact ⟨ids, hids, hlabels⟩

section Places

variable {d : Document} {ids : List Nat} {nodes : List Node}

/-- The root element has a place, but no reference. -/
theorem Node.references_take_wrapperTag
    (hlabels : ids.map d.label = .element wrapperTag [] :: nodes.map fun m => m.element.label)
    (count : Nat) :
    references d (ids.take (count + 1)) = (nodes.take count).map Node.reference := by
  have hnone : (Label.element wrapperTag []).reference? = none := rfl
  rw [Evaluator.references_eq, List.map_take, hlabels, List.take_succ_cons,
    List.filterMap_cons_none hnone, ← List.map_take, filterMap_reference?_label]

theorem Node.references_wrapperTag
    (hlabels : ids.map d.label = .element wrapperTag [] :: nodes.map fun m => m.element.label) :
    references d ids = nodes.map Node.reference := by
  have hlength : ids.length = nodes.length + 1 := by
    simpa using congrArg List.length hlabels
  have htake := references_take_wrapperTag hlabels nodes.length
  rwa [← hlength, List.take_length, List.take_length] at htake

end Places

/-- **The last of several nodes that can be taken for the root element is missed**, although the
position after the last one that is tried isolates it. -/
theorem Node.synthesize_last_wrapperTag (hcarried : ∀ m ∈ root.all, m.element.IsCarried)
    {n : Node} (htag : n.element.tag = wrapperTag) (hidentity : identity? n.element = none)
    {before : List Node} (hsharing : root.sharing n.element = before ++ [n])
    (hseveral : before ≠ []) (hfresh : n.reference ∉ before.map Node.reference)
    (hlimit : before.length + 2 < Number.exactLimit) (asked : Questions) :
    (Evaluator.ofSource root.sourceText).answer asked (baseExpression n.element) =
      .ok (before.map Node.reference ++ [n.reference]) ∧
    (Evaluator.ofSource root.sourceText).answer asked
      (indexed (baseExpression n.element) (before.length + 2)) = .ok [n.reference] ∧
    (synthesize (Evaluator.ofSource root.sourceText) asked n.element).1 =
      .error (.ambiguous (baseExpression n.element) (before.length + 1)) := by
  have hread := root.read_sourceText fun m hm => (hcarried m hm).isLegal
  obtain ⟨ids, hids, hlabels⟩ := root.meaning_wrapperTag hcarried htag hidentity
  rw [hsharing] at hlabels
  have hlength : ids.length = before.length + 2 := by
    simpa using congrArg List.length hlabels
  have hfound : references root.sourceDocument ids =
      before.map Node.reference ++ [n.reference] := by
    rw [references_wrapperTag hlabels, List.map_append, List.map_singleton]
  have hcount : (references root.sourceDocument ids).length = before.length + 1 := by
    simp [hfound]
  have htried : references root.sourceDocument (ids.take (before.length + 1)) =
      before.map Node.reference := by
    rw [references_take_wrapperTag hlabels, List.take_left]
  have hlast : references root.sourceDocument ids[before.length + 1]?.toList = [n.reference] := by
    have hget := congrArg (fun labels => labels[before.length + 1]?) hlabels
    simp at hget
    obtain ⟨m, hm, hlabel⟩ := hget
    rw [Evaluator.references_eq, hm]
    simp [hlabel, Element.reference?_label, Node.reference]
  have hbound : ids.length < Number.exactLimit := by omega
  have hlisted : n.reference ∈ references root.sourceDocument ids := by
    simp [hfound]
  obtain ⟨hsucceeds, hfails⟩ := Evaluator.succeeds_listed hread hids hbound hlisted asked
  refine ⟨?_, ?_, ?_⟩
  · rw [Evaluator.answer_baseExpression hread hids, hfound]
  · rw [Evaluator.answer_indexed hread hids hbound (Nat.succ_pos _) hlimit]
    exact congrArg Except.ok hlast
  · rw [← hcount]
    apply hfails
    -- It is neither the only one listed nor among the first of the selected elements.
    rw [hsucceeds, hcount, htried]
    rintro (honly | htaken)
    · exact hseveral (List.eq_nil_of_length_eq_zero (by omega))
    · exact hfresh htaken

end Written

section Nested

/-- A view without an identity that has the tag of the root element. -/
def innerViews : Node :=
  .node ⟨"inner", "views", none, [], none, none⟩ []

/-- Two nested views that can be taken for the root element. -/
def nestedViews : Node :=
  .node ⟨"outer", "views", some ⟨0, 0, 1, 1⟩, [], none, none⟩ [innerViews]

def nestedViewsTree : Tree :=
  ⟨nestedViews, nestedViews.sourceText, [("outer", []), ("inner", [0])], none⟩

theorem Tree.assemble_nestedViews :
    assemble nestedViews none webViewKind = .ok nestedViewsTree := by
  simp [assemble, nestedViewsTree, webViewKind, nestedViews, innerViews, Node.withPaths,
    Node.walk_cons, Node.walk_nil, Node.labelled, Node.children, Node.element, Node.reference,
    PathIndex.extend, List.lookup]

theorem Node.isCarried_nestedViews : ∀ m ∈ nestedViews.all, m.element.IsCarried := by
  simp only [nestedViews, innerViews, forall_mem_all, List.forall_mem_cons]
  exact ⟨by decide, by decide, by simp⟩

theorem Node.sharing_nestedViews {e : Element} (htag : e.tag = wrapperTag)
    (hidentity : identity? e = none) :
    nestedViews.sharing e = [nestedViews] ++ [innerViews] := by
  have houter : nestedViews.element.tag = wrapperTag := by decide
  have hinner : innerViews.element.tag = wrapperTag := by decide
  have hall : nestedViews.all = [nestedViews, innerViews] := by
    simp [nestedViews, innerViews, all_node]
  simp [sharing, hall, Locator.sharesIdentity, htag, hidentity, houter, hinner]

/-- The first of the two is found at the last position that is tried. -/
theorem Tree.succeeds_outerViews :
    assemble nestedViews none webViewKind = .ok nestedViewsTree ∧
    nestedViewsTree.evaluator.answer [] (baseExpression nestedViews.element) =
      .ok ["outer", "inner"] ∧
    Succeeds nestedViewsTree.evaluator [] nestedViews.element := by
  have htag : nestedViews.element.tag = wrapperTag := by decide
  have hidentity : identity? nestedViews.element = none := by decide
  have hread := nestedViews.read_sourceText fun m hm => (Node.isCarried_nestedViews m hm).isLegal
  obtain ⟨ids, hids, hlabels⟩ :=
    Node.meaning_wrapperTag Node.isCarried_nestedViews htag hidentity
  rw [Node.sharing_nestedViews htag hidentity] at hlabels
  have hanswer : nestedViewsTree.evaluator.answer [] (baseExpression nestedViews.element) =
      .ok ["outer", "inner"] := by
    refine (Evaluator.answer_baseExpression hread hids).trans ?_
    rw [Node.references_wrapperTag hlabels]
    rfl
  have htried : "outer" ∈ references nestedViews.sourceDocument (ids.take 2) := by
    rw [Node.references_take_wrapperTag hlabels 1]
    exact List.mem_cons_self
  obtain ⟨d, expr, selected, hdocument, hexpr, hselected, -, hsucceeds⟩ :=
    Tree.synthesize_listed hanswer List.mem_cons_self
  obtain rfl : nestedViews.sourceDocument = d := Except.ok.inj (hread.symm.trans hdocument)
  obtain rfl : baseExpr nestedViews.element = expr :=
    Except.ok.inj ((Locator.parse_baseExpression _).symm.trans hexpr)
  obtain rfl : ids = selected :=
    Expression.Value.nodes.inj (Except.ok.inj (hids.symm.trans hselected))
  have hsize : nestedViews.sourceDocument.size < Number.exactLimit := by
    rw [nestedViews.size_sourceDocument]
    simp [nestedViews, innerViews, Node.all_node, Number.exactLimit]
  exact ⟨Tree.assemble_nestedViews, hanswer, (hsucceeds hsize).2.1.mpr (Or.inr htried)⟩

/-- **The second of the two is listed, and it is missed.** -/
theorem Tree.synthesize_innerViews :
    assemble nestedViews none webViewKind = .ok nestedViewsTree ∧
    innerViews ∈ nestedViewsTree.nodes ∧
    nestedViewsTree.evaluator.answer [] "//views" = .ok ["outer", "inner"] ∧
    nestedViewsTree.evaluator.answer [] "(//views)[3]" = .ok ["inner"] ∧
    (synthesize nestedViewsTree.evaluator [] innerViews.element).1 =
      .error (.ambiguous "//views" 2) := by
  have htag : innerViews.element.tag = wrapperTag := by decide
  have hidentity : identity? innerViews.element = none := by decide
  have hbase : baseExpression innerViews.element = "//views" := by decide
  have hindexed : indexed "//views" 3 = "(//views)[3]" := by decide
  have hmem : innerViews ∈ nestedViews.all := by
    simp [nestedViews, innerViews, Node.all_node]
  have hmissed := Node.synthesize_last_wrapperTag Node.isCarried_nestedViews htag hidentity
    (Node.sharing_nestedViews htag hidentity) (List.cons_ne_nil _ _) (by decide)
    (by decide) []
  rw [hbase] at hmissed
  obtain ⟨hlisted, hisolated, hambiguous⟩ := hmissed
  exact ⟨Tree.assemble_nestedViews, hmem, hlisted, hindexed ▸ hisolated, hambiguous⟩

end Nested

end ScreenInspector
