/-
  ScreenInspector/Proofs/NodeSets.lean
  ====================================
  **Expressions select nodes in document order, each once.**

  Paths end in a list that was put in order, unions are put in order, and predicates only leave out
  members; no other expression makes a list of nodes.  So every list of nodes that an expression
  gives, at whatever node and place it is evaluated, is strictly increasing (`nodes_canonical`).
  There is one such list for given members, and therefore unions neither depend on the order of
  their parts nor on how these are grouped, and a part that comes twice counts once.

  The members stay among any nodes that no axis leads out of.  In a numbered document these are the
  numbers of its nodes, whose order is that of the trees walked depth first.
-/
import ScreenInspector.Proofs.LocationPaths

namespace ScreenInspector.Expression

open ScreenInspector.Markup (Document)

/-! ### Canonical lists -/

/-- A list of nodes in document order, each once, and all of them among given ones. -/
structure IsCanonical (inside : Nat → Prop) (ids : List Nat) : Prop where
  pairwise : ids.Pairwise (· < ·)
  isInside : ∀ n ∈ ids, inside n

variable {d : Document} {inside : Nat → Prop}

theorem IsCanonical.sublist {ids kept : List Nat} (h : IsCanonical inside ids)
    (hkept : kept.Sublist ids) : IsCanonical inside kept :=
  ⟨h.pairwise.sublist hkept, fun n hn => h.isInside n (hkept.subset hn)⟩

theorem isCanonical_inDocumentOrder {ids : List Nat} (h : ∀ n ∈ ids, inside n) :
    IsCanonical inside (inDocumentOrder ids) :=
  ⟨pairwise_inDocumentOrder ids, fun n hn => h n (mem_inDocumentOrder.mp hn)⟩

theorem followSteps_isCanonical (hclosed : IsClosed d inside) {steps : List StepMeaning}
    {ns ids : List Nat} (hns : IsCanonical inside ns)
    (h : followSteps d steps ns = .ok (.nodes ids)) : IsCanonical inside ids := by
  induction steps generalizing ns with
  | nil =>
    rw [followSteps, Except.ok.injEq, Value.nodes.injEq] at h
    rwa [← h]
  | cons s rest ih =>
    rw [followSteps] at h
    split at h
    · simp at h
    · obtain ⟨found, hfound, h⟩ := bind_eq_ok_iff.mp h
      obtain ⟨-, rfl⟩ := StepMeaning.selectAll_eq_ok_iff.mp hfound
      refine ih (isCanonical_inDocumentOrder ?_) h
      intro m hm
      obtain ⟨n, hn, hm⟩ := List.mem_flatMap.mp hm
      exact hclosed.axis s.axis n (hns.isInside n hn) m (s.survivors_subset d n hm)

/-! ### Values of expressions -/

theorem eq_or_boolean_of_comparisons {rest : List (Comparison × Meaning)} {left v : Value}
    {c : Context} (h : Meaning.comparisons d rest left c = .ok v) :
    v = left ∨ ∃ b, v = .boolean b := by
  induction rest generalizing left with
  | nil =>
    left
    exact (Except.ok.inj h).symm
  | cons operand rest ih =>
    obtain ⟨op, m⟩ := operand
    right
    obtain ⟨right, -, h⟩ := bind_eq_ok_iff.mp h
    rcases ih h with rfl | hboolean
    · exact ⟨_, rfl⟩
    · exact hboolean

theorem number_of_calculations {rest : List (Arithmetic × Meaning)} {x : Float} {v : Value}
    {c : Context} (h : Meaning.calculations d rest x c = .ok v) : ∃ y, v = .number y := by
  induction rest generalizing x with
  | nil => exact ⟨x, (Except.ok.inj h).symm⟩
  | cons operand rest ih =>
    obtain ⟨op, m⟩ := operand
    obtain ⟨right, -, h⟩ := bind_eq_ok_iff.mp h
    exact ih h

theorem boolean_of_either {operands : List Meaning} {v : Value} {c : Context}
    (h : Meaning.either operands c = .ok v) : ∃ b, v = .boolean b := by
  induction operands with
  | nil => exact ⟨false, (Except.ok.inj h).symm⟩
  | cons m rest ih =>
    obtain ⟨u, -, h⟩ := bind_eq_ok_iff.mp h
    split at h
    · exact ⟨true, (Except.ok.inj h).symm⟩
    · exact ih h

theorem boolean_of_both {operands : List Meaning} {v : Value} {c : Context}
    (h : Meaning.both operands c = .ok v) : ∃ b, v = .boolean b := by
  induction operands with
  | nil => exact ⟨true, (Except.ok.inj h).symm⟩
  | cons m rest ih =>
    obtain ⟨u, -, h⟩ := bind_eq_ok_iff.mp h
    split at h
    · exact ih h
    · exact ⟨false, (Except.ok.inj h).symm⟩

/-- No function gives a list of nodes. -/
theorem apply_ne_nodes (f : Function) (d : Document) (c : Context) (values : List Value)
    (ids : List Nat) : f.apply d c values ≠ .ok (.nodes ids) := by
  intro h
  -- Only these look at what kind of value they are given.
  cases f with
  | count | name | localName =>
    rw [Function.apply] at h
    split at h <;> simp at h
  | _ => simp [Function.apply] at h

/-- Collecting from some parts and one more gives the nodes of both. -/
theorem collect_cons_eq_ok_iff {m : Meaning} {rest : List Meaning} {c : Context} {ids : List Nat} :
    Meaning.collect (m :: rest) c = .ok ids ↔ ∃ here more, m c = .ok (.nodes here) ∧
      Meaning.collect rest c = .ok more ∧ ids = here ++ more := by
  rw [Meaning.collect, bind_eq_ok_iff]
  constructor
  · rintro ⟨v, hv, h⟩
    cases v with
    | nodes here =>
      obtain ⟨more, hmore, h⟩ := bind_eq_ok_iff.mp h
      exact ⟨here, more, hv, hmore, (Except.ok.inj h).symm⟩
    | _ => cases h
  · rintro ⟨here, more, hhere, hmore, rfl⟩
    exact ⟨.nodes here, hhere, bind_eq_ok_iff.mpr ⟨more, hmore, rfl⟩⟩

mutual

/-- **The lists of nodes that an expression gives are canonical**, among any nodes that it is
evaluated in and that no axis leads out of.  Only a comparison without operators and a filter pass
on a list from within. -/
theorem Expr.isCanonical (hclosed : IsClosed d inside) {c : Context} (hc : inside c.node) :
    ∀ (e : Expr) {ids : List Nat}, e.meaning d c = .ok (.nodes ids) → IsCanonical inside ids
  | .either operands, _, h => by
    obtain ⟨b, hb⟩ := boolean_of_either h
    cases hb
  | .both operands, _, h => by
    obtain ⟨b, hb⟩ := boolean_of_both h
    cases hb
  | .compare first rest, _, h => by
    obtain ⟨left, hleft, h⟩ := bind_eq_ok_iff.mp h
    rcases eq_or_boolean_of_comparisons h with rfl | ⟨b, hb⟩
    · exact Expr.isCanonical hclosed hc first hleft
    · cases hb
  | .arithmetic first rest, _, h => by
    obtain ⟨left, -, h⟩ := bind_eq_ok_iff.mp h
    obtain ⟨x, hx⟩ := number_of_calculations h
    cases hx
  | .negate operand, _, h => by
    obtain ⟨v, -, h⟩ := bind_eq_ok_iff.mp h
    cases h
  | .union parts, _, h => by
    obtain ⟨found, hfound, h⟩ := bind_eq_ok_iff.mp h
    cases h
    exact isCanonical_inDocumentOrder (Expr.isInside_collect hclosed hc parts hfound)
  | .path absolute steps, _, h => by
    refine followSteps_isCanonical hclosed ⟨List.pairwise_singleton _ _, ?_⟩ h
    intro n hn
    rw [List.mem_singleton.mp hn]
    split
    · exact hclosed.document
    · exact hc
  | .filter primary predicates steps, _, h => by
    obtain ⟨v, hv, h⟩ := bind_eq_ok_iff.mp h
    cases v with
    | nodes ns =>
      obtain ⟨kept, hkept, h⟩ := bind_eq_ok_iff.mp h
      obtain ⟨-, rfl⟩ := Meaning.filterBy_eq_ok_iff.mp hkept
      have hns := Expr.isCanonical hclosed hc primary hv
      exact followSteps_isCanonical hclosed (hns.sublist (Meaning.leavesAll_sublist _ ns)) h
    | _ => cases h
  | .literal text, _, h => by cases h
  | .number value, _, h => by cases h
  | .call f args, ids, h => by
    obtain ⟨values, -, h⟩ := bind_eq_ok_iff.mp h
    exact absurd h (apply_ne_nodes f d c values ids)

theorem Expr.isInside_collect (hclosed : IsClosed d inside) {c : Context} (hc : inside c.node) :
    ∀ (parts : List Expr) {ids : List Nat},
      Meaning.collect (Expr.meanings d parts) c = .ok ids → ∀ n ∈ ids, inside n
  | [], _, h => by
    cases h
    simp
  | e :: rest, _, h => by
    obtain ⟨here, more, hhere, hmore, rfl⟩ := collect_cons_eq_ok_iff.mp h
    have hcanonical := Expr.isCanonical hclosed hc e hhere
    have hrest := Expr.isInside_collect hclosed hc rest hmore
    intro n hn
    rcases List.mem_append.mp hn with hn | hn
    · exact hcanonical.isInside n hn
    · exact hrest n hn

end

/-! ### Unions -/

section Union

variable {c : Context} {a b : Expr} {as bs : List Nat}

theorem meaning_union (ha : a.meaning d c = .ok (.nodes as)) (hb : b.meaning d c = .ok (.nodes bs)) :
    (Expr.union [a, b]).meaning d c = .ok (.nodes (inDocumentOrder (as ++ bs))) := by
  have hnone : Meaning.collect [] c = .ok [] := rfl
  have hlast := collect_cons_eq_ok_iff.mpr ⟨bs, [], hb, hnone, rfl⟩
  have hboth := collect_cons_eq_ok_iff.mpr ⟨as, _, ha, hlast, rfl⟩
  rw [List.append_nil] at hboth
  exact bind_eq_ok_iff.mpr ⟨as ++ bs, hboth, rfl⟩

end Union

/-- **Node-sets are canonical.**  In the numbered document of any trees, every list of nodes that an
expression gives, wherever it is evaluated, is strictly increasing; if it is evaluated at a node of
the document, it holds such nodes only, and they come as they do when the trees are walked depth
first.  So unions of expressions that give nodes do not depend on order or grouping, and the union of
an expression with itself is what it gives alone. -/
theorem nodes_canonical (nodes : List Markup.Node) :
    let d := Document.ofNodes nodes
    (∀ (e : Expr) c ids, e.meaning d c = .ok (.nodes ids) →
      ids.Pairwise (· < ·) ∧
      (c.node < d.size → (∀ n ∈ ids, n < d.size) ∧
        (ids.map d.label).Sublist (.document :: nodes.flatMap Markup.Node.labels))) ∧
    (∀ (a b e : Expr) c as bs es, a.meaning d c = .ok (.nodes as) →
      b.meaning d c = .ok (.nodes bs) → e.meaning d c = .ok (.nodes es) →
      (∃ ids, (Expr.union [a, b]).meaning d c = .ok (.nodes ids) ∧
        (Expr.union [b, a]).meaning d c = .ok (.nodes ids)) ∧
      (∃ ids, (Expr.union [.union [a, b], e]).meaning d c = .ok (.nodes ids) ∧
        (Expr.union [a, .union [b, e]]).meaning d c = .ok (.nodes ids)) ∧
      (Expr.union [a, a]).meaning d c = .ok (.nodes as)) := by
  intro d
  constructor
  · intro e c ids h
    have hpairs := (e.isCanonical (isClosed_true d) (c := c) trivial h).pairwise
    refine ⟨hpairs, fun hc => ?_⟩
    have hsize := (e.isCanonical (isClosed_size nodes) hc h).isInside
    refine ⟨hsize, ?_⟩
    rw [← Document.map_label_range]
    exact (sublist_range hpairs hsize).map d.label
  · intro a b e c as bs es ha hb he
    have hab := meaning_union ha hb
    have hbe := meaning_union hb he
    refine ⟨⟨_, hab, ?_⟩, ⟨_, meaning_union hab he, ?_⟩, ?_⟩
    · have hswap : inDocumentOrder (bs ++ as) = inDocumentOrder (as ++ bs) := by
        apply inDocumentOrder_congr
        intro n
        rw [List.mem_append, List.mem_append, or_comm]
      rw [meaning_union hb ha, hswap]
    · have hregroup : inDocumentOrder (as ++ inDocumentOrder (bs ++ es)) =
          inDocumentOrder (inDocumentOrder (as ++ bs) ++ es) := by
        apply inDocumentOrder_congr
        intro n
        simp only [List.mem_append, mem_inDocumentOrder, or_assoc]
      rw [meaning_union ha hbe, hregroup]
    · have hpairs := (a.isCanonical (isClosed_true d) (c := c) trivial ha).pairwise
      have htwice : inDocumentOrder (as ++ as) = as := by
        apply inDocumentOrder_eq hpairs
        intro n
        rw [List.mem_append, or_self]
      rw [meaning_union ha ha, htwice]

end ScreenInspector.Expression
