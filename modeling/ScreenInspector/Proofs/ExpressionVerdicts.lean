/-
  ScreenInspector/Proofs/ExpressionVerdicts.lean
  ==============================================
  **When an expression is rejected as invalid.**

  The grammar judges an expression before a document is looked at.  What it lets pass is rejected
  for the kind of its values, if that is not a list of nodes, or because the evaluation comes to a
  misfit (`Evaluator.rejects_iff`).  The first does not depend on the document.  The second does,
  unless there is no misfit in the expression or one that is wanted over every document: over these
  expressions all documents agree (`Evaluator.verdict_of_documents`).

  A predicate is asked about nothing if there is nothing to ask about.  So what follows two slashes
  and a name may be any misfit: a document without elements of that name gives an empty list, and
  any other one rejects the expression (`fails_everywhere_iff`).
-/
import ScreenInspector.Proofs.NeededParts
import ScreenInspector.Proofs.Selection

namespace ScreenInspector

open Expression
open Markup (Document)

namespace Expression

/-! ### Misfits in a predicate -/

variable {c : Context}

/-- A predicate is asked iff there are nodes to ask it about. -/
theorem exists_isAsked_iff {d : Document} {predicate : Expr} {ns : List Nat} :
    (∃ c, IsAsked d [predicate] ns predicate c) ↔ ∃ n, n ∈ ns := by
  constructor
  · rintro ⟨c, asked⟩
    cases asked with
    | here place => exact ⟨_, List.mem_of_getElem? place⟩
    | later left asked => cases asked
  · rintro ⟨n, hn⟩
    obtain ⟨i, place⟩ := List.getElem?_of_mem hn
    exact ⟨_, .here place⟩

theorem mem_candidates_child {d : Document} {tag : String} {predicates : List Expr} {n m : Nat} :
    m ∈ ((Step.step .child (.name tag) predicates).meaning d).candidates d n ↔
      m ∈ d.children n ∧ d.name? m = some tag := by
  rw [StepMeaning.candidates, List.mem_filter]
  simp [Step.meaning, Axis.nodes, NodeTest.admits]

/-- Only nodes of a document have names. -/
theorem lt_size_of_name {d : Document} {m : Nat} {tag : String} (h : d.name? m = some tag) :
    m < d.size := by
  by_contra hout
  have hnone : d.entries[m]? = none := Array.getElem?_eq_none (Nat.le_of_not_lt hout)
  simp [Document.name?, Document.label, hnone] at h

/-- Every element is a child of some node. -/
theorem exists_mem_children_of_name {nodes : List Markup.Node} {m : Nat} {tag : String}
    (h : (Document.ofNodes nodes).name? m = some tag) :
    ∃ n, n < (Document.ofNodes nodes).size ∧ m ∈ (Document.ofNodes nodes).children n := by
  have hpos : 0 < m := by
    rcases Nat.eq_zero_or_pos m with rfl | hpos
    · simp [Document.name?, Document.label, Document.ofNodes] at h
    · exact hpos
  exact Document.exists_mem_children nodes hpos (lt_size_of_name h)

/-- **Two slashes, a name and a predicate that never has a value** fail over exactly the documents
with an element of that name. -/
theorem fails_everywhere_iff (nodes : List Markup.Node) (tag : String) {predicate : Expr}
    (h : predicate.IsCertainMisfit) (c : Context) :
    Fails ((Expr.path true [Step.everywhere, .step .child (.name tag) [predicate]]).meaning
        (Document.ofNodes nodes) c) ↔
      ∃ m, (Document.ofNodes nodes).name? m = some tag := by
  rw [Expr.meaning, fails_followSteps_iff]
  constructor
  · rintro ⟨part, c', asked, -⟩
    cases asked with
    | here isNodeAxis start asked => cases asked
    | later isNodeAxis led asked =>
      cases asked with
      | here isNodeAxis start asked =>
        obtain rfl := List.mem_singleton.mp asked.mem
        obtain ⟨m, hm⟩ := exists_isAsked_iff.mp ⟨c', asked⟩
        exact ⟨m, (mem_candidates_child.mp hm).2⟩
      | later isNodeAxis led asked => cases asked
  · rintro ⟨m, hm⟩
    obtain ⟨n, hn, hchild⟩ := exists_mem_children_of_name hm
    obtain ⟨c', asked⟩ := exists_isAsked_iff.mpr ⟨m, mem_candidates_child.mpr ⟨hchild, hm⟩⟩
    have hstart : n ∈ inDocumentOrder (List.range (Document.ofNodes nodes).size) :=
      mem_inDocumentOrder.mpr (List.mem_range.mpr hn)
    exact ⟨predicate, c', .later (by decide) (selectAll_everywhere nodes)
      (.here (by simp [Step.axis]) hstart asked), h.fails c'⟩

theorem filterBy_nil (predicates : List Meaning) : filterBy predicates [] = .ok [] := by
  induction predicates with
  | nil => rfl
  | cons predicate rest ih => exact ih

theorem selectAll_eq_nil {d : Document} {s : StepMeaning} {ns : List Nat}
    (h : ∀ n ∈ ns, s.candidates d n = []) : s.selectAll d ns = .ok [] := by
  induction ns with
  | nil => rfl
  | cons n rest ih =>
    have hselect : s.select d n = .ok [] := by
      have hnone : s.candidates d n = [] := h n List.mem_cons_self
      rw [StepMeaning.select]
      exact (congrArg (filterBy s.predicates) hnone).trans (filterBy_nil s.predicates)
    rw [StepMeaning.selectAll, hselect, ok_bind, ih fun n hn => h n (List.mem_cons_of_mem _ hn)]
    rfl

/-- **Without an element of the name no predicate is asked**, and nothing is selected. -/
theorem meaning_everywhere_of_none (nodes : List Markup.Node) (tag : String)
    (predicates : List Expr) (hnone : ∀ m, (Document.ofNodes nodes).name? m ≠ some tag)
    (c : Context) :
    (Expr.path true [Step.everywhere, .step .child (.name tag) predicates]).meaning
        (Document.ofNodes nodes) c = .ok (.nodes []) := by
  have hcandidates : ∀ n ∈ inDocumentOrder (List.range (Document.ofNodes nodes).size),
      ((Step.step .child (.name tag) predicates).meaning (Document.ofNodes nodes)).candidates
        (Document.ofNodes nodes) n = [] := by
    intro n _
    rw [List.eq_nil_iff_forall_not_mem]
    intro m hm
    exact hnone m (mem_candidates_child.mp hm).2
  simp only [Expr.meaning, Step.meanings, if_true, followSteps]
  rw [if_neg (by simp [Step.everywhere, Step.meaning]), selectAll_everywhere, ok_bind,
    if_neg (by simp [Step.meaning]), selectAll_eq_nil hcandidates]
  have hempty : inDocumentOrder [] = [] := inDocumentOrder_of_pairwise List.Pairwise.nil
  rw [ok_bind, hempty]

/-! ### Misfits of whole evaluations -/

/-- The evaluation of an expression comes to a misfit, from the document itself on. -/
def Expr.MeetsMisfit (d : Document) (e : Expr) : Prop :=
  ∃ part c, Reaches d (e, ⟨0, 1, 1⟩) (part, c) ∧ part.isMisfit = true

theorem Expr.not_meetsMisfit_of_fits {e : Expr} (hfits : e.fits = true) (d : Document) :
    ¬ e.MeetsMisfit d := by
  intro hmeets
  exact Expr.not_fails_of_fits hfits ⟨0, 1, 1⟩ ((e.fails_iff_reaches ⟨0, 1, 1⟩).mpr hmeets)

theorem Expr.IsCertainMisfit.meetsMisfit {e : Expr} (h : e.IsCertainMisfit) (d : Document) :
    e.MeetsMisfit d :=
  (e.fails_iff_reaches ⟨0, 1, 1⟩).mp (h.fails ⟨0, 1, 1⟩)

end Expression

namespace Evaluator

/-! ### Verdicts -/

/-- An evaluator finds an expression invalid. -/
def Rejects (v : Evaluator) (text : String) : Prop :=
  ∀ asked, ∃ fault, v.answer asked text = .error (.invalidExpression text fault)

variable {source source' text : String} {d d' : Document} {e : Expr}

theorem rejects_of_not_parsed {fault : Expression.Fault} (hparse : Expr.parse text = .error fault) :
    (ofSource source).Rejects text := by
  intro asked
  exact ⟨fault, by simp [ofSource, answerIn, hparse]⟩

/-- **The verdict on an expression that the grammar accepts.** -/
theorem verdict_of_parse (hread : Document.read source = .ok d) (hparse : Expr.parse text = .ok e) :
    (ofSource source).Rejects text ∧ (e.kind ≠ .nodes ∨ e.MeetsMisfit d) ∨
      (∀ asked, ∃ found, (ofSource source).answer asked text = .ok found) ∧
        e.kind = .nodes ∧ ¬ e.MeetsMisfit d := by
  have hmisfit := e.fails_iff_reaches (d := d) ⟨0, 1, 1⟩
  cases hvalue : e.meaning d ⟨0, 1, 1⟩ with
  | error fault =>
    rw [hvalue] at hmisfit
    refine Or.inl ⟨fun asked => ⟨fault, ?_⟩, Or.inr (hmisfit.mp (fails_error fault))⟩
    simp [ofSource, answerIn, hparse, hread, Expr.evaluate, hvalue]
  | ok v =>
    rw [hvalue] at hmisfit
    have hmeets : ¬ e.MeetsMisfit d := fun h => not_fails_ok v (hmisfit.mpr h)
    have hkind := e.kind_of_meaning hvalue
    by_cases hnodes : v.kind = .nodes
    · obtain ⟨ids, rfl⟩ := Value.kind_eq_nodes_iff.mp hnodes
      refine Or.inr ⟨fun asked => ⟨references d ids, ?_⟩, hkind ▸ hnodes, hmeets⟩
      simp [ofSource, answerIn, hparse, hread, Expr.evaluate, hvalue]
    · refine Or.inl ⟨fun asked => ⟨.selectsNoElements, ?_⟩, Or.inl (hkind ▸ hnodes)⟩
      cases v with
      | nodes ids => exact absurd rfl hnodes
      | _ => simp [ofSource, answerIn, hparse, hread, Expr.evaluate, hvalue]

theorem not_rejects_of_answers
    (h : ∀ asked, ∃ found, (ofSource source).answer asked text = .ok found) :
    ¬ (ofSource source).Rejects text := by
  intro hrejects
  obtain ⟨found, hfound⟩ := h []
  obtain ⟨fault, hfault⟩ := hrejects []
  rw [hfound] at hfault
  cases hfault

/-- **What is rejected**: what the grammar does not accept, what gives no list of nodes, and what
comes to a misfit. -/
theorem rejects_iff (hread : Document.read source = .ok d) (text : String) :
    (ofSource source).Rejects text ↔
      ∀ e, Expr.parse text = .ok e → e.kind ≠ .nodes ∨ e.MeetsMisfit d := by
  cases hparse : Expr.parse text with
  | error fault => simp [rejects_of_not_parsed hparse]
  | ok e =>
    simp only [Except.ok.injEq, forall_eq']
    rcases verdict_of_parse hread hparse with ⟨hrejects, hreason⟩ | ⟨hanswers, hkind, hmeets⟩
    · exact ⟨fun _ => hreason, fun _ => hrejects⟩
    · refine ⟨fun h => absurd h (not_rejects_of_answers hanswers), ?_⟩
      rintro (hother | hmisfit)
      · exact absurd hkind hother
      · exact absurd hmisfit hmeets

/-- What is not rejected is answered with a list. -/
theorem answers_of_not_rejects (hread : Document.read source = .ok d)
    (h : ¬ (ofSource source).Rejects text) (asked : Questions) :
    ∃ found, (ofSource source).answer asked text = .ok found := by
  cases hparse : Expr.parse text with
  | error fault => exact absurd (rejects_of_not_parsed hparse) h
  | ok e =>
    rcases verdict_of_parse hread hparse with ⟨hrejects, -⟩ | ⟨hanswers, -, -⟩
    · exact absurd hrejects h
    · exact hanswers asked

/-- **When two documents agree on an expression**, for every text and all documents that can be read.
A text is rejected over a document iff the grammar does not accept it, its values are no lists of
nodes, or the evaluation over this document comes to a misfit; everything else is answered with a
list.  So the verdicts over two documents are the same iff both evaluations come to a misfit or
neither does, unless the kind of the values decides.  The text alone decides if it has no misfit at
all or one among the parts that are wanted over every document. -/
theorem verdict_of_documents (hread : Document.read source = .ok d)
    (hread' : Document.read source' = .ok d') (text : String) :
    ((ofSource source).Rejects text ↔
      ∀ e, Expr.parse text = .ok e → e.kind ≠ .nodes ∨ e.MeetsMisfit d) ∧
    (¬ (ofSource source).Rejects text →
      ∀ asked, ∃ found, (ofSource source).answer asked text = .ok found) ∧
    (((ofSource source).Rejects text ↔ (ofSource source').Rejects text) ↔
      ∀ e, Expr.parse text = .ok e → e.kind = .nodes → (e.MeetsMisfit d ↔ e.MeetsMisfit d')) ∧
    ∀ e, Expr.parse text = .ok e → e.fits = true ∨ e.IsCertainMisfit →
      ((ofSource source).Rejects text ↔ (ofSource source').Rejects text) := by
  have hverdicts : ((ofSource source).Rejects text ↔ (ofSource source').Rejects text) ↔
      ∀ e, Expr.parse text = .ok e → e.kind = .nodes → (e.MeetsMisfit d ↔ e.MeetsMisfit d') := by
    rw [rejects_iff hread, rejects_iff hread']
    cases Expr.parse text with
    | error fault => simp
    | ok e =>
      simp only [Except.ok.injEq, forall_eq']
      by_cases hkind : e.kind = .nodes
      · simp [hkind]
      · simp [hkind]
  refine ⟨rejects_iff hread text, answers_of_not_rejects hread, hverdicts, ?_⟩
  intro e hparse hsettled
  refine hverdicts.mpr ?_
  rintro e' hparse' -
  obtain rfl := Except.ok.inj (hparse.symm.trans hparse')
  rcases hsettled with hfits | hcertain
  · exact iff_of_false (Expr.not_meetsMisfit_of_fits hfits d)
      (Expr.not_meetsMisfit_of_fits hfits d')
  · exact iff_of_true (hcertain.meetsMisfit d) (hcertain.meetsMisfit d')

/-! ### Two documents -/

theorem read_emptyViews :
    Document.read "<views/>" = .ok (Document.ofNodes [.element "views" [] []]) := by
  rfl

theorem read_emptyButton :
    Document.read "<Button/>" = .ok (Document.ofNodes [.element "Button" [] []]) := by
  rfl

/-- They agree on an expression without misfits. -/
theorem verdicts_withoutId :
    (ofSource "<views/>").Rejects "//Button[not(@id)]" ↔
      (ofSource "<Button/>").Rejects "//Button[not(@id)]" := by
  have hchecked : (Expr.parse "//Button[not(@id)]").toOption.any Expr.fits = true := by
    decide +kernel
  obtain ⟨e, hparse, hfits⟩ := any_toOption_iff.mp hchecked
  obtain ⟨-, -, -, hagree⟩ :=
    verdict_of_documents read_emptyViews read_emptyButton "//Button[not(@id)]"
  exact hagree e hparse (Or.inl hfits)

/-- Whether an expression asks elements of a name for the count of a number. -/
def isCountOfNumber (tag : String) : Expr → Bool
  | .path true [.step .descendantOrSelf .anyNode [], .step .child (.name name)
      [.compare (.call .count [.number _]) [(.equal, .number _)]]] => name == tag
  | _ => false

theorem eq_of_isCountOfNumber {tag : String} {e : Expr} (h : isCountOfNumber tag e = true) :
    ∃ x y, e = .path true [Step.everywhere, .step .child (.name tag)
      [.compare (.call .count [.number x]) [(.equal, .number y)]]] := by
  unfold isCountOfNumber at h
  split at h
  next x y =>
    obtain rfl := eq_of_beq h
    exact ⟨x, y, rfl⟩
  next => cases h

theorem parse_countOfNumber : ∃ x y, Expr.parse "//Button[count(1)=1]" =
    .ok (.path true [Step.everywhere, .step .child (.name "Button")
      [.compare (.call .count [.number x]) [(.equal, .number y)]]]) := by
  have hchecked : (Expr.parse "//Button[count(1)=1]").toOption.any
      (isCountOfNumber "Button") = true := by
    decide +kernel
  obtain ⟨e, hparse, hcount⟩ := any_toOption_iff.mp hchecked
  obtain ⟨x, y, rfl⟩ := eq_of_isCountOfNumber hcount
  exact ⟨x, y, hparse⟩

/-- The count of a number is a misfit wherever it is asked for. -/
theorem isCertainMisfit_countOfNumber (x y : Float) :
    (Expr.compare (.call .count [.number x]) [(.equal, .number y)]).IsCertainMisfit :=
  ⟨.call .count [.number x], .single List.mem_cons_self, rfl⟩

/-- **The same text is answered with an empty list over one document and rejected over another**:
there is no element whose count of a number would be asked for. -/
theorem verdicts_countOfNumber :
    (∃ d, Document.read "<views/>" = .ok d) ∧ (∃ d, Document.read "<Button/>" = .ok d) ∧
    (∀ asked, (ofSource "<views/>").answer asked "//Button[count(1)=1]" = .ok []) ∧
    (ofSource "<Button/>").Rejects "//Button[count(1)=1]" := by
  obtain ⟨x, y, hparse⟩ := parse_countOfNumber
  refine ⟨⟨_, read_emptyViews⟩, ⟨_, read_emptyButton⟩, ?_, ?_⟩
  · intro asked
    have hnone : ∀ m, (Document.ofNodes [.element "views" [] []]).name? m ≠ some "Button" := by
      intro m hm
      have hlt : m < 2 := lt_size_of_name hm
      revert hm
      revert m
      decide
    have hvalue := meaning_everywhere_of_none _ "Button"
      [.compare (.call .count [.number x]) [(.equal, .number y)]] hnone ⟨0, 1, 1⟩
    simp [ofSource, answerIn, hparse, read_emptyViews, Expr.evaluate, hvalue, references]
  · have hfails := (fails_everywhere_iff [.element "Button" [] []] "Button"
      (isCertainMisfit_countOfNumber x y) ⟨0, 1, 1⟩).mpr ⟨1, rfl⟩
    have hmeets := (Expr.fails_iff_reaches _ _).mp hfails
    rcases verdict_of_parse read_emptyButton hparse with ⟨hrejects, -⟩ | ⟨-, -, hnot⟩
    · exact hrejects
    · exact absurd hmeets hnot

end Evaluator

end ScreenInspector
