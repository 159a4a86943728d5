/-
  ScreenInspector/Proofs/Selection.lean
  =====================================
  **What the expressions of locators select.**

  A predicate that looks at its node alone decides (`Decides`), so that the predicates of a step
  filter its nodes.  `select_everywhere` puts this together for a path of two slashes and a name:
  since every node but the document is a child of an earlier one, the path selects the elements of
  the name that pass the predicates, in document order.  A number as predicate keeps the node at
  that place (`filterBy_number`), as long as places are counted below the limit of exact doubles.
-/
import ScreenInspector.Locator.Evaluator
import ScreenInspector.Proofs.DocumentStructure
import ScreenInspector.Proofs.NodeLists
import ScreenInspector.Proofs.Outcomes
import ScreenInspector.Proofs.WholeNumbers

namespace ScreenInspector.Expression

open ScreenInspector.Markup (Document)

/-! ### Predicates that look at their node alone -/

/-- Predicates keep the nodes that pass, whatever nodes they are counted among. -/
def Decides (predicates : List Meaning) (pass : Nat → Bool) : Prop :=
  ∀ ns, filterBy predicates ns = .ok (ns.filter pass)

theorem decides_nil : Decides [] fun _ => true := by
  intro ns
  simp [filterBy]

theorem keepFrom_eq_filter {predicate : Meaning} {pass : Nat → Bool}
    (h : ∀ n position size, predicate ⟨n, position, size⟩ = .ok (.boolean (pass n)))
    (size position : Nat) (ns : List Nat) :
    keepFrom predicate size position ns = .ok (ns.filter pass) := by
  induction ns generalizing position with
  | nil => rfl
  | cons n rest ih =>
    rw [keepFrom, h, ok_bind, ih, ok_bind, List.filter_cons]
    rfl

/-- A predicate with a truth value of the node decides by it. -/
theorem decides_singleton {predicate : Meaning} {pass : Nat → Bool}
    (h : ∀ n position size, predicate ⟨n, position, size⟩ = .ok (.boolean (pass n))) :
    Decides [predicate] pass := by
  intro ns
  rw [filterBy, keepFrom_eq_filter h, ok_bind, filterBy]

/-- Comparing an attribute with a text: whether some attribute of the name has it as its value. -/
theorem meaning_attribute_equal (d : Document) (name value : String) (n position size : Nat) :
    (Expr.compare (.path false [.step .attribute (.name name) []])
        [(.equal, .literal value)]).meaning d ⟨n, position, size⟩ =
      .ok (.boolean ((attributeValues d (.name name) [n]).any fun found => found == value)) := by
  simp [Expr.meaning, Step.meanings, Step.meaning, Expr.meanings, Expr.comparands, followSteps,
    Meaning.comparisons, Value.compare, Value.members?, Value.isBoolean, Value.compareAtoms,
    Value.equalAtoms, Value.isNumber, Value.toText]

/-! ### Steps -/

theorem selectAll_of_decides {d : Document} {s : StepMeaning} {pass : Nat → Bool}
    (h : Decides s.predicates pass) (ns : List Nat) :
    s.selectAll d ns =
      .ok (ns.flatMap fun n => (s.axis.nodes d n).filter fun m => s.test.admits d m && pass m) := by
  induction ns with
  | nil => rfl
  | cons n rest ih =>
    rw [StepMeaning.selectAll, StepMeaning.select, h, ok_bind, ih, ok_bind, List.flatMap_cons,
      List.filter_filter]
    simp only [Bool.and_comm, pure_eq_ok]

/-- The step that two slashes stand for leads from the document to all nodes. -/
theorem selectAll_everywhere (nodes : List Markup.Node) :
    (Step.everywhere.meaning (Document.ofNodes nodes)).selectAll (Document.ofNodes nodes) [0] =
      .ok (List.range (Document.ofNodes nodes).size) := by
  have h := selectAll_of_decides (d := Document.ofNodes nodes)
    (s := Step.everywhere.meaning (Document.ofNodes nodes)) decides_nil [0]
  rw [h]
  simp [Step.everywhere, Step.meaning, Axis.nodes, NodeTest.admits,
    ← Document.cons_descendants_zero]

/-- **Two slashes and a name select the elements of that name** that pass the predicates. -/
theorem select_everywhere (nodes : List Markup.Node) (tag : String) {predicates : List Expr}
    {pass : Nat → Bool}
    (h : Decides (Expr.meanings (Document.ofNodes nodes) predicates) pass) (c : Context) :
    (Expr.path true [Step.everywhere, .step .child (.name tag) predicates]).meaning
        (Document.ofNodes nodes) c =
      .ok (.nodes ((List.range (Document.ofNodes nodes).size).filter fun m =>
        (Document.ofNodes nodes).name? m == some tag && pass m)) := by
  have hstep := selectAll_of_decides (d := Document.ofNodes nodes)
    (s := (Step.step .child (.name tag) predicates).meaning (Document.ofNodes nodes)) h
    (List.range (Document.ofNodes nodes).size)
  have hrange := (List.pairwise_lt_range (n := (Document.ofNodes nodes).size))
  simp only [Expr.meaning, Step.meanings, if_true, followSteps]
  rw [if_neg (by simp [Step.everywhere, Step.meaning]), selectAll_everywhere, ok_bind,
    inDocumentOrder_of_pairwise hrange, if_neg (by simp [Step.meaning]), hstep, ok_bind,
    inDocumentOrder_eq (hrange.filter _)]
  intro m
  simp only [List.mem_flatMap, List.mem_filter, List.mem_range, Step.meaning, Axis.nodes,
    NodeTest.admits]
  constructor
  · rintro ⟨p, hp, hchild, hpass⟩
    refine ⟨?_, hpass⟩
    by_contra hout
    -- A number that is not in the document has no name.
    have hname : (Document.ofNodes nodes).name? m = none := by
      have hnone : (Document.ofNodes nodes).entries[m]? = none :=
        Array.getElem?_eq_none (Nat.le_of_not_lt hout)
      simp [Document.name?, Document.label, hnone]
    rw [hname] at hpass
    simp at hpass
  · rintro ⟨hm, hpass⟩
    have hpos : 0 < m := by
      rcases Nat.eq_zero_or_pos m with rfl | hpos
      · simp [Document.name?, Document.label, Document.ofNodes] at hpass
      · exact hpos
    obtain ⟨p, hp, hchild⟩ := Document.exists_mem_children nodes hpos hm
    exact ⟨p, hp, hchild, hpass⟩

/-! ### Places -/

/-- A number keeps the node at its place, if that is among those that are counted. -/
theorem keepFrom_number {i : Nat} (hi : i < Number.exactLimit) (size position : Nat)
    (ns : List Nat) (hns : position + ns.length ≤ Number.exactLimit) :
    keepFrom (fun _ => .ok (.number (Number.ofNat i))) size position ns =
      .ok (if position ≤ i then ns[i - position]?.toList else []) := by
  induction ns generalizing position with
  | nil => simp [keepFrom]
  | cons n rest ih =>
    rw [List.length_cons] at hns
    have hrest := ih (position + 1) (by omega)
    have hkeeps : Value.keeps position (.number (Number.ofNat i)) = decide (i = position) :=
      Number.ofNat_beq_ofNat hi (by omega)
    rw [keepFrom, ok_bind, hrest, ok_bind, hkeeps, pure_eq_ok]
    rcases Nat.lt_trichotomy i position with hlt | rfl | hgt
    · have hne : ¬ decide (i = position) = true := by
        simp only [decide_eq_true_eq]
        omega
      rw [if_neg hne, if_neg (by omega), if_neg (by omega)]
    · rw [if_pos (by simp), if_neg (by omega), if_pos (Nat.le_refl i), Nat.sub_self]
      rfl
    · obtain ⟨k, rfl⟩ := Nat.exists_eq_add_of_lt hgt
      have hne : ¬ decide (position + k + 1 = position) = true := by
        simp only [decide_eq_true_eq]
        omega
      have hhere : position + k + 1 - position = k + 1 := by omega
      have hnext : position + k + 1 - (position + 1) = k := by omega
      rw [if_neg hne, if_pos (by omega), if_pos (by omega), hhere, hnext,
        List.getElem?_cons_succ]

/-- **A number as predicate keeps the node at that place**, counted from 1. -/
theorem filterBy_number {i : Nat} (hpos : 0 < i) (hi : i < Number.exactLimit) {ns : List Nat}
    (hns : ns.length < Number.exactLimit) :
    filterBy [fun _ => .ok (.number (Number.ofNat i))] ns = .ok ns[i - 1]?.toList := by
  rw [filterBy, keepFrom_number hi ns.length 1 ns (by omega), ok_bind, filterBy,
    if_pos (Nat.succ_le_of_lt hpos)]

/-- The predicates behind an expression filter what it selects as a whole. -/
theorem meaning_filter {d : Document} {e : Expr} {c : Context} {ns kept : List Nat}
    (he : e.meaning d c = .ok (.nodes ns)) {predicates : List Expr}
    (hkept : filterBy (Expr.meanings d predicates) ns = .ok kept) :
    (Expr.filter e predicates []).meaning d c = .ok (.nodes kept) := by
  simp only [Expr.meaning, he, ok_bind, hkept, Step.meanings, followSteps]

theorem meaning_indexed {d : Document} {e : Expr} {c : Context} {ns : List Nat}
    (he : e.meaning d c = .ok (.nodes ns)) {i : Nat} (hpos : 0 < i) (hi : i < Number.exactLimit)
    (hns : ns.length < Number.exactLimit) :
    (Expr.filter e [.number (Number.ofNat i)] []).meaning d c = .ok (.nodes ns[i - 1]?.toList) :=
  meaning_filter he (filterBy_number hpos hi hns)

end ScreenInspector.Expression
