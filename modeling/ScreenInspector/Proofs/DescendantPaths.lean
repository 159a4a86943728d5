/-
  ScreenInspector/Proofs/DescendantPaths.lean
  ===========================================
  **Two slashes are the descendant axis** for predicates that judge nodes.

  Two slashes lead to a node and everything inside it, and from each of these to its children; the
  axis leads to everything inside the node at once.  Both come to the same nodes, since what is
  inside a node is directly inside it or directly inside something that is
  (`mem_descendants_iff_child`).  But the places of a node differ: among the children of its
  parent on one way, among all descendants on the other.  So the two agree for predicates that do
  not look at places (`followSteps_everywhere_child`), and the texts of the two are read as these
  steps (`parse_doubleSlash`, `parse_descendant`).
-/
import ScreenInspector.Proofs.DocumentPartition
import ScreenInspector.Proofs.GroupedExpressions
import ScreenInspector.Proofs.LocationPaths
import ScreenInspector.Proofs.PlaceFreePredicates

namespace ScreenInspector

open Markup (Document)

/-- What is inside a node is directly inside it or directly inside something that is. -/
theorem Markup.Document.mem_descendants_iff_child {nodes : List Markup.Node} {n m : Nat}
    (hn : n < (ofNodes nodes).size) : m ∈ (ofNodes nodes).descendants n ↔
      ∃ p ∈ n :: (ofNodes nodes).descendants n, m ∈ (ofNodes nodes).children p := by
  have hinside : ∀ p ∈ n :: (ofNodes nodes).descendants n, p < (ofNodes nodes).size :=
    (Expression.isClosed_size nodes).axis .descendantOrSelf n hn
  have hcase : ∀ p, p ∈ n :: (ofNodes nodes).descendants n ↔
      n = p ∨ p ∈ (ofNodes nodes).descendants n := by
    intro p
    rw [List.mem_cons, eq_comm]
  constructor
  · intro h
    have hm := hinside m (List.mem_cons_of_mem n h)
    have hpos : 0 < m := Nat.zero_lt_of_lt ((mem_descendants_iff _).mp h).1
    obtain ⟨p, -, hchild⟩ := exists_mem_children nodes hpos hm
    have hp := mem_children_iff.mp hchild
    exact ⟨p, (hcase p).mpr ((mem_descendants_iff_parent hm hp).mp h), hchild⟩
  · rintro ⟨p, hmem, hchild⟩
    have hm := (Expression.isClosed_size nodes).axis .child p (hinside p hmem) m hchild
    exact (mem_descendants_iff_parent hm (mem_children_iff.mp hchild)).mpr ((hcase p).mp hmem)

namespace Expression

/-! ### The same nodes on both ways -/

section Ways

variable {nodes : List Markup.Node} {test : NodeTest} {predicates : List Meaning} {n k : Nat}

/-- For predicates that judge nodes, whether a step fails is a matter of each candidate. -/
theorem StepMeaning.succeedsAt_iff {d : Document} {s : StepMeaning}
    (h : ∀ predicate ∈ s.predicates, predicate.JudgesNodes) :
    s.SucceedsAt d n ↔ ∀ m ∈ s.candidates d n, Meaning.SucceedAll s.predicates [m] :=
  Meaning.succeedAll_iff h

theorem StepMeaning.mem_survivors_iff {d : Document} {s : StepMeaning}
    (h : ∀ predicate ∈ s.predicates, predicate.JudgesNodes) :
    k ∈ s.survivors d n ↔ k ∈ s.candidates d n ∧ k ∈ Meaning.leavesAll s.predicates [k] :=
  Meaning.mem_leavesAll_iff h

theorem survivors_everywhere (d : Document) (n : Nat) :
    (Step.everywhere.meaning d).survivors d n = n :: d.descendants n := by
  have hall : (n :: d.descendants n).filter (fun _ => true) = n :: d.descendants n :=
    List.filter_true _
  exact hall

theorem succeedsAt_everywhere (d : Document) (n : Nat) :
    (Step.everywhere.meaning d).SucceedsAt d n :=
  trivial

/-- The children on the way of two slashes are the descendants, if they pass the same test. -/
theorem mem_candidates_descendant_iff (hn : n < (Document.ofNodes nodes).size) {m : Nat} :
    m ∈ StepMeaning.candidates (.ofNodes nodes) ⟨.descendant, test, predicates⟩ n ↔
      ∃ p ∈ n :: (Document.ofNodes nodes).descendants n,
        m ∈ StepMeaning.candidates (.ofNodes nodes) ⟨.child, test, predicates⟩ p := by
  have hinside := Document.mem_descendants_iff_child (m := m) hn
  simp only [StepMeaning.candidates, Axis.nodes, List.mem_filter]
  rw [hinside]
  constructor
  · rintro ⟨⟨p, hp, hchild⟩, htest⟩
    exact ⟨p, hp, hchild, htest⟩
  · rintro ⟨p, hp, hchild, htest⟩
    exact ⟨⟨p, hp, hchild⟩, htest⟩

/-- A single step fails on the way iff it does from where it starts. -/
theorem succeedAlong_singleton_iff {d : Document} {s : StepMeaning} :
    SucceedAlong d [s] n ↔ s.SucceedsAt d n := by
  rw [succeedAlong_cons_iff]
  exact and_iff_left fun m _ => succeedAlong_nil d m

theorem chain_singleton_iff {d : Document} {s : StepMeaning} :
    Chain d [s] n k ↔ k ∈ s.survivors d n := by
  simp only [chain_cons_iff, chain_nil_iff, exists_eq_right']

variable (h : ∀ predicate ∈ predicates, predicate.JudgesNodes)

include h

theorem succeedAlong_everywhere_child (hn : n < (Document.ofNodes nodes).size) :
    SucceedAlong (.ofNodes nodes)
        [Step.everywhere.meaning (.ofNodes nodes), ⟨.child, test, predicates⟩] n ↔
      SucceedAlong (.ofNodes nodes) [⟨.descendant, test, predicates⟩] n := by
  rw [succeedAlong_cons_iff, survivors_everywhere, succeedAlong_singleton_iff,
    StepMeaning.succeedsAt_iff (s := ⟨.descendant, test, predicates⟩) h]
  simp only [succeedAlong_singleton_iff,
    StepMeaning.succeedsAt_iff (s := ⟨.child, test, predicates⟩) h]
  constructor
  · rintro ⟨-, hchildren⟩ m hm
    obtain ⟨p, hp, hchild⟩ := (mem_candidates_descendant_iff hn).mp hm
    exact hchildren p hp m hchild
  · intro hinside
    refine ⟨succeedsAt_everywhere _ n, ?_⟩
    intro p hp m hchild
    exact hinside m ((mem_candidates_descendant_iff hn).mpr ⟨p, hp, hchild⟩)

theorem chain_everywhere_child (hn : n < (Document.ofNodes nodes).size) :
    Chain (.ofNodes nodes)
        [Step.everywhere.meaning (.ofNodes nodes), ⟨.child, test, predicates⟩] n k ↔
      Chain (.ofNodes nodes) [⟨.descendant, test, predicates⟩] n k := by
  rw [chain_cons_iff, survivors_everywhere, chain_singleton_iff,
    StepMeaning.mem_survivors_iff (s := ⟨.descendant, test, predicates⟩) h,
    mem_candidates_descendant_iff hn]
  simp only [chain_singleton_iff,
    StepMeaning.mem_survivors_iff (s := ⟨.child, test, predicates⟩) h]
  constructor
  · rintro ⟨p, hp, hchild, hleft⟩
    exact ⟨⟨p, hp, hchild⟩, hleft⟩
  · rintro ⟨⟨p, hp, hchild⟩, hleft⟩
    exact ⟨p, hp, hchild, hleft⟩

/-- **Two slashes lead where the descendant axis leads**, from any node, if the predicates judge
nodes. -/
theorem followSteps_everywhere_child (hn : n < (Document.ofNodes nodes).size) {v : Value} :
    followSteps (.ofNodes nodes)
        [Step.everywhere.meaning (.ofNodes nodes), ⟨.child, test, predicates⟩] [n] = .ok v ↔
      followSteps (.ofNodes nodes) [⟨.descendant, test, predicates⟩] [n] = .ok v := by
  have heverywhere : ∀ s ∈ [Step.everywhere.meaning (.ofNodes nodes), ⟨.child, test, predicates⟩],
      s.axis ≠ .attribute := by
    simp [Step.everywhere, Step.meaning]
  have hdescendant : ∀ s ∈ [(⟨.descendant, test, predicates⟩ : StepMeaning)],
      s.axis ≠ .attribute := by
    simp
  rw [followSteps_eq_ok_iff heverywhere (by simp), followSteps_eq_ok_iff hdescendant (by simp)]
  simp only [List.mem_singleton, forall_eq, exists_eq_left, succeedAlong_everywhere_child h hn,
    chain_everywhere_child h hn]

end Ways

/-! ### The texts of both -/

section Texts

variable {nested : Parser Expr} {ts mid : List Token} {test : NodeTest} {predicates : List Expr}
  {e : Expr}

/-- Where a path is all that is written, no operator is found behind it. -/
theorem parseEither_of_path (hsigns : splitMinus ts = (0, ts))
    (hpath : parsePath nested ts = .ok (e, [])) : parseEither nested ts = .ok (e, []) := by
  simp only [parseEither, parseBoth, parseEquality, parseOrder, parseSum, parseProduct, parseSign,
    hsigns, parseUnion, chain, hpath]
  rfl

theorem parseStepOn_of_test {axis : Axis} (haxis : axis ≠ .attribute)
    (htest : parseTest ts = .ok (test, mid))
    (hpredicates : parsePredicates nested mid = .ok (predicates, [])) :
    parseStepOn nested axis ts = .ok (.step axis test predicates, []) := by
  simp only [parseStepOn, htest, ok_bind, hpredicates, haxis, false_and, if_false, pure_eq_ok]

/-- A single step is all of its steps, whether it leads to attributes or not. -/
theorem parseSteps_of_step {s : Step} (h : parseStep nested ts = .ok (s, [])) :
    parseSteps nested ts = .ok ([s], []) := by
  simp only [parseSteps, chain, h]
  rfl

/-- A text writes a node test and predicates behind it. -/
def WritesTest (text : String) (test : NodeTest) (predicates : List Expr) : Prop :=
  ∃ ts mid, Token.scan text = .ok ts ∧ parseTest ts = .ok (test, mid) ∧
    parsePredicates (parseExpr (depthLimit - 1)) mid = .ok (predicates, [])

theorem parse_of_tokens {text : String} (hscan : Token.scan text = .ok ts) (hts : ts ≠ [])
    (hsigns : splitMinus ts = (0, ts))
    (hpath : parsePath (parseExpr (depthLimit - 1)) ts = .ok (e, [])) :
    Expr.parse text = .ok e := by
  have hlevel : parseExpr depthLimit ts = parseEither (parseExpr (depthLimit - 1)) ts := rfl
  rw [Expr.parse, hscan, ok_bind, Expr.ofTokens, List.isEmpty_eq_false_iff.mpr hts,
    if_neg (by decide), hlevel, parseEither_of_path hsigns hpath]
  rfl

/-- **Behind two slashes** stands a step to children. -/
theorem parse_doubleSlash {text : String} (h : WritesTest text test predicates) :
    Expr.parse ("//" ++ text) =
      .ok (.path true [Step.everywhere, .step .child test predicates]) := by
  obtain ⟨ts, mid, hscan, htest, hpredicates⟩ := h
  have htokens : Scans ("//" ++ text).toList (.doubleSlash :: ts) := by
    have hrest := scans_of_scan hscan
    rw [String.toList_append]
    exact Scans.cons (by decide) (fun _ => rfl) (Nat.le_succ _) hrest
  have hstep : parseStep (parseExpr (depthLimit - 1)) ts =
      .ok (.step .child test predicates, []) := by
    have hderived := (reads_predicates (reads_nested (depthLimit - 1))).sound hpredicates
    have hfollow := follow_le_of_predicates hderived (Nat.zero_le 8)
    rw [parseStep_child (recognizes_test.sound htest) hfollow]
    exact parseStepOn_of_test (by decide) htest hpredicates
  apply parse_of_tokens htokens.scan (List.cons_ne_nil _ _) rfl
  rw [parsePath, parseSteps_of_step hstep, map_ok]

/-- **Behind the name of the axis** stands a step to descendants. -/
theorem parse_descendant {text : String} (h : WritesTest text test predicates) :
    Expr.parse ("/descendant::" ++ text) =
      .ok (.path true [.step .descendant test predicates]) := by
  obtain ⟨ts, mid, hscan, htest, hpredicates⟩ := h
  have htokens : Scans ("/descendant::" ++ text).toList
      (.slash :: .name "descendant" :: .doubleColon :: ts) := by
    have hrest := scans_of_scan hscan
    have hmark : Scans (':' :: ':' :: text.toList) (.doubleColon :: ts) :=
      Scans.cons (by decide) (fun _ => rfl) (Nat.le_succ _) hrest
    have htag : IsTag "descendant".toList := ⟨by decide, List.all_eq_true.mp (by decide)⟩
    have hname := Scans.name htag (forall_mem_head? (by decide)) hmark
    rw [String.toList_append]
    exact Scans.cons (by decide) (fun _ => rfl) (Nat.le_refl _) hname
  have hstep : parseStep (parseExpr (depthLimit - 1)) (.name "descendant" :: .doubleColon :: ts) =
      .ok (.step .descendant test predicates, []) := by
    have haxis : Axis.ofName? "descendant" = some .descendant := by decide
    simp only [parseStep, haxis]
    exact parseStepOn_of_test (by decide) htest hpredicates
  apply parse_of_tokens htokens.scan (List.cons_ne_nil _ _) rfl
  have hbegins : beginsStep (.name "descendant" :: .doubleColon :: ts) = true := rfl
  rw [parsePath, if_pos hbegins, parseSteps_of_step hstep, map_ok]

end Texts

/-! ### The main result -/

/-- Two evaluations have the same values, so both fail or both have one. -/
theorem fails_or_same {x y : Except Fault Value} (h : ∀ v, x = .ok v ↔ y = .ok v) :
    Fails x ∧ Fails y ∨ ∃ v, x = .ok v ∧ y = .ok v := by
  rcases fails_or_ok x with hx | ⟨v, hx⟩
  · rcases fails_or_ok y with hy | ⟨v, hy⟩
    · exact Or.inl ⟨hx, hy⟩
    · exact Or.inr ⟨v, (h v).mpr hy, hy⟩
  · exact Or.inr ⟨v, hx, (h v).mp hx⟩

theorem fails_answerIn {d : Document} {text : String} {e : Expr} (hparse : Expr.parse text = .ok e)
    (h : Fails (e.evaluate d)) : Fails (Evaluator.answerIn (.ok d) text) := by
  obtain ⟨fault, hfault⟩ := h
  refine ⟨.invalidExpression text fault, ?_⟩
  simp only [Evaluator.answerIn, hparse, hfault]

theorem answerIn_of_nodes {d : Document} {text : String} {e : Expr} {ids : List Nat}
    (hparse : Expr.parse text = .ok e) (h : e.evaluate d = .ok (.nodes ids)) :
    Evaluator.answerIn (.ok d) text = .ok (Evaluator.references d ids) := by
  simp only [Evaluator.answerIn, hparse, h]

/-- **Two slashes and the descendant axis agree** over every document, for every node test and all
predicates that are no numbers and do not ask for the place of their node, except in predicates of
their own.  The two paths both fail, or they list the same nodes in the same order; and the texts
that write them are read as these paths, and both fail or have the same references in the same
order as answer. -/
theorem everywhere_eq_descendant {nodes : List Markup.Node} {test : NodeTest}
    {predicates : List Expr} (hfree : ∀ e ∈ predicates, e.IsPlaceFree)
    (hvalues : ∀ e ∈ predicates, ∀ c v,
      e.meaning (Document.ofNodes nodes) c = .ok v → v.isNumber = false) :
    let d := Document.ofNodes nodes
    let everywhere := Expr.path true [Step.everywhere, .step .child test predicates]
    let inside := Expr.path true [.step .descendant test predicates]
    (∀ c, Fails (everywhere.meaning d c) ∧ Fails (inside.meaning d c) ∨
      ∃ ids, everywhere.meaning d c = .ok (.nodes ids) ∧ inside.meaning d c = .ok (.nodes ids)) ∧
    ∀ text, WritesTest text test predicates →
      Expr.parse ("//" ++ text) = .ok everywhere ∧
      Expr.parse ("/descendant::" ++ text) = .ok inside ∧
      (Fails (Evaluator.answerIn (.ok d) ("//" ++ text)) ∧
          Fails (Evaluator.answerIn (.ok d) ("/descendant::" ++ text)) ∨
        ∃ found, Evaluator.answerIn (.ok d) ("//" ++ text) = .ok found ∧
          Evaluator.answerIn (.ok d) ("/descendant::" ++ text) = .ok found) := by
  intro d everywhere inside
  have hjudges := Expr.judgesNodes_of_mem hfree hvalues
  have hsize : 0 < (Document.ofNodes nodes).size := (isClosed_size nodes).document
  have hsame : ∀ c v, everywhere.meaning d c = .ok v ↔ inside.meaning d c = .ok v :=
    fun _ _ => followSteps_everywhere_child hjudges hsize
  have hnodes : ∀ c, Fails (everywhere.meaning d c) ∧ Fails (inside.meaning d c) ∨
      ∃ ids, everywhere.meaning d c = .ok (.nodes ids) ∧
        inside.meaning d c = .ok (.nodes ids) := by
    intro c
    rcases fails_or_same (hsame c) with hfail | ⟨v, heverywhere, hinside⟩
    · exact Or.inl hfail
    · obtain ⟨ids, rfl⟩ := Value.kind_eq_nodes_iff.mp (inside.kind_of_meaning hinside)
      exact Or.inr ⟨ids, heverywhere, hinside⟩
  refine ⟨hnodes, ?_⟩
  intro text htext
  have hslashes := parse_doubleSlash htext
  have haxis := parse_descendant htext
  refine ⟨hslashes, haxis, ?_⟩
  rcases hnodes ⟨0, 1, 1⟩ with ⟨heverywhere, hinside⟩ | ⟨ids, heverywhere, hinside⟩
  · exact Or.inl ⟨fails_answerIn hslashes heverywhere, fails_answerIn haxis hinside⟩
  · exact Or.inr ⟨_, answerIn_of_nodes hslashes heverywhere, answerIn_of_nodes haxis hinside⟩

/-- A predicate for nodes whose last child is a button: it asks for places among the children. -/
def endsInButton : Expr :=
  .path false [.step .child (.name "Button")
    [.compare (.call .position []) [(.equal, .call .last [])]]]

/-- Both texts have an answer over a frame of buttons, and it is the same. -/
theorem everywhere_eq_descendant_nestedButtons :
    (∀ e ∈ [endsInButton], e.IsPlaceFree) ∧
    (∀ e ∈ [endsInButton], ∀ c v,
      e.meaning (.ofNodes nestedButtons) c = .ok v → v.isNumber = false) ∧
    WritesTest "*[Button[position()=last()]]" .anyElement [endsInButton] ∧
    ∃ found,
      Evaluator.answerIn (.ok (.ofNodes nestedButtons)) "//*[Button[position()=last()]]" =
        .ok found ∧
      Evaluator.answerIn (.ok (.ofNodes nestedButtons))
        "/descendant::*[Button[position()=last()]]" = .ok found := by
  have hfree : ∀ e ∈ [endsInButton], e.IsPlaceFree := by
    intro e he
    obtain rfl := List.mem_singleton.mp he
    exact Expr.isPlaceFree_iff.mpr ⟨rfl, by simp [endsInButton, Expr.outerParts]⟩
  have hvalues : ∀ e ∈ [endsInButton], ∀ c v,
      e.meaning (.ofNodes nestedButtons) c = .ok v → v.isNumber = false := by
    intro e he c v hv
    obtain rfl := List.mem_singleton.mp he
    obtain ⟨ids, rfl⟩ := Value.kind_eq_nodes_iff.mp (Expr.kind_of_meaning _ hv)
    rfl
  have hwrites : WritesTest "*[Button[position()=last()]]" .anyElement [endsInButton] :=
    ⟨[.star, .openBracket, .name "Button", .openBracket, .name "position", .openParen, .closeParen,
        .equal, .name "last", .openParen, .closeParen, .closeBracket, .closeBracket],
      _, rfl, rfl, rfl⟩
  obtain ⟨hpaths, htexts⟩ := @everywhere_eq_descendant nestedButtons .anyElement _ hfree hvalues
  obtain ⟨hslashes, -, hanswers⟩ := htexts _ hwrites
  refine ⟨hfree, hvalues, hwrites, ?_⟩
  -- The predicate has a value everywhere, so the answers are no faults.
  have hfits : (Expr.path true [Step.everywhere, .step .child .anyElement [endsInButton]]).fits =
      true := rfl
  have hvalue := Expr.not_fails_of_fits (d := .ofNodes nestedButtons) hfits ⟨0, 1, 1⟩
  rcases hanswers with ⟨hfails, -⟩ | hfound
  · rcases hpaths ⟨0, 1, 1⟩ with ⟨hfail, -⟩ | ⟨ids, heverywhere, -⟩
    · exact absurd hfail hvalue
    · rw [answerIn_of_nodes hslashes heverywhere] at hfails
      exact absurd hfails (not_fails_ok _)
  · exact hfound

end Expression

end ScreenInspector
