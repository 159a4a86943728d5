/-
  ScreenInspector/Proofs/NeededParts.lean
  =======================================
  **Which parts of an expression are evaluated**, and where.

  Not all of them are: `or` and `and` stop at the first operand that decides them, and a predicate
  is asked about the nodes that there are.  `Needs` says at which node and place an evaluation goes
  on to which part, one case for each way in which it does.  An evaluation fails iff it comes to a
  misfit (`Expr.fails_iff_reaches`): a misfit never has a value, and what is none fails only with one
  of the parts that it needs (`Expr.fails_iff`).

  Some parts are needed over every document (`Expr.certainParts`).
-/
import ScreenInspector.Proofs.ValueKinds
import Mathlib.Logic.Relation

namespace ScreenInspector.Expression

open ScreenInspector.Markup (Document)

variable {d : Document} {c : Context} {ns : List Nat}

/-! ### The parts that are evaluated -/

/-- The parts whose values are wanted whatever the document holds. -/
def Expr.certainParts : Expr → List Expr
  | .either operands => operands.head?.toList
  | .both operands => operands.head?.toList
  | .compare first rest => first :: rest.map Prod.snd
  | .arithmetic first rest => first :: rest.map Prod.snd
  | .negate operand => [operand]
  | .union parts => parts
  | .path _ _ => []
  | .filter primary _ _ => [primary]
  | .literal _ => []
  | .number _ => []
  | .call _ args => args

/-- Operands are evaluated in turn as long as their values let the evaluation go on. -/
inductive TakesTurn (d : Document) (c : Context) (goesOn : Value → Bool) :
    List Expr → Expr → Prop
  | here {operand rest} : TakesTurn d c goesOn (operand :: rest) operand
  | later {operand rest part v} (value : operand.meaning d c = .ok v) (goes : goesOn v = true)
      (turn : TakesTurn d c goesOn rest part) : TakesTurn d c goesOn (operand :: rest) part

/-- Predicates are asked about nodes: the first about all of them, each with its place, and the
others about those that the first keeps. -/
inductive IsAsked (d : Document) : List Expr → List Nat → Expr → Context → Prop
  | here {predicate rest ns i n} (place : ns[i]? = some n) :
    IsAsked d (predicate :: rest) ns predicate ⟨n, i + 1, ns.length⟩
  | later {predicate rest ns kept part c}
      (left : keepFrom (predicate.meaning d) ns.length 1 ns = .ok kept)
      (asked : IsAsked d rest kept part c) : IsAsked d (predicate :: rest) ns part c

/-- The predicates of steps are asked about the candidates of each step from each node that the
steps before it lead to. -/
inductive IsAskedOnWay (d : Document) : List Step → List Nat → Expr → Context → Prop
  | here {s rest ns n part c} (isNodeAxis : s.axis ≠ .attribute) (start : n ∈ ns)
      (asked : IsAsked d s.predicates ((s.meaning d).candidates d n) part c) :
    IsAskedOnWay d (s :: rest) ns part c
  | later {s rest ns found part c} (isNodeAxis : s.axis ≠ .attribute)
      (led : (s.meaning d).selectAll d ns = .ok found)
      (asked : IsAskedOnWay d rest (inDocumentOrder found) part c) :
    IsAskedOnWay d (s :: rest) ns part c

/-- **An evaluation goes on to a part**, at a node and place. -/
inductive Needs (d : Document) : Expr × Context → Expr × Context → Prop
  | certain {e part c} (mem : part ∈ e.certainParts) : Needs d (e, c) (part, c)
  | either {operands part c} (turn : TakesTurn d c (fun v => !v.toBool) operands part) :
    Needs d (.either operands, c) (part, c)
  | both {operands part c} (turn : TakesTurn d c Value.toBool operands part) :
    Needs d (.both operands, c) (part, c)
  | onPath {absolute steps c part c'}
      (asked : IsAskedOnWay d steps [if absolute then 0 else c.node] part c') :
    Needs d (.path absolute steps, c) (part, c')
  | filtering {primary predicates steps c ids part c'}
      (value : primary.meaning d c = .ok (.nodes ids)) (asked : IsAsked d predicates ids part c') :
    Needs d (.filter primary predicates steps, c) (part, c')
  | onFilter {primary predicates steps c ids kept part c'}
      (value : primary.meaning d c = .ok (.nodes ids))
      (left : filterBy (Expr.meanings d predicates) ids = .ok kept)
      (asked : IsAskedOnWay d steps kept part c') :
    Needs d (.filter primary predicates steps, c) (part, c')

/-- An evaluation comes to a part of an expression, at any depth. -/
def Reaches (d : Document) : Expr × Context → Expr × Context → Prop :=
  Relation.ReflTransGen (Needs d)

/-- Something holds wherever a relation leads iff it holds at the start and wherever the relation leads
from the places that come next. -/
theorem forall_reachable_iff {α : Type} {r : α → α → Prop} {p : α → Prop} {a : α} :
    (∀ b, Relation.ReflTransGen r a b → p b) ↔
      p a ∧ ∀ next, r a next → ∀ b, Relation.ReflTransGen r next b → p b := by
  constructor
  · intro h
    refine ⟨h a .refl, ?_⟩
    intro next hnext b hb
    exact h b (.head hnext hb)
  · rintro ⟨hself, hrest⟩ b hb
    rcases Relation.ReflTransGen.cases_head hb with rfl | ⟨next, hnext, hb⟩
    · exact hself
    · exact hrest next hnext b hb

theorem TakesTurn.of_head {goesOn : Value → Bool} {operands : List Expr} {part : Expr}
    (h : part ∈ operands.head?.toList) : TakesTurn d c goesOn operands part := by
  cases operands with
  | nil => cases h
  | cons operand rest =>
    obtain rfl := List.mem_singleton.mp h
    exact .here

/-! ### They are parts -/

theorem TakesTurn.mem {goesOn : Value → Bool} {operands : List Expr} {part : Expr}
    (h : TakesTurn d c goesOn operands part) : part ∈ operands := by
  induction h with
  | here => exact List.mem_cons_self
  | later value goes turn ih => exact List.mem_cons_of_mem _ ih

theorem IsAsked.mem {predicates : List Expr} {part : Expr} (h : IsAsked d predicates ns part c) :
    part ∈ predicates := by
  induction h with
  | here place => exact List.mem_cons_self
  | later left asked ih => exact List.mem_cons_of_mem _ ih

theorem IsAskedOnWay.mem {steps : List Step} {part : Expr} (h : IsAskedOnWay d steps ns part c) :
    part ∈ steps.flatMap Step.predicates := by
  induction h with
  | here isNodeAxis start asked =>
    rw [List.flatMap_cons]
    exact List.mem_append_left _ asked.mem
  | later isNodeAxis led asked ih =>
    rw [List.flatMap_cons]
    exact List.mem_append_right _ ih

theorem Expr.mem_parts_of_certain {e part : Expr} (h : part ∈ e.certainParts) : part ∈ e.parts := by
  cases e with
  | either operands => exact List.mem_of_mem_head? (Option.mem_toList.mp h)
  | both operands => exact List.mem_of_mem_head? (Option.mem_toList.mp h)
  | compare first rest => exact h
  | arithmetic first rest => exact h
  | negate operand => exact h
  | union parts => exact h
  | path absolute steps => cases h
  | filter primary predicates steps =>
    rw [List.mem_singleton.mp h]
    exact List.mem_cons_self
  | literal text => cases h
  | number value => cases h
  | call f args => exact h

/-- **What an evaluation needs is a part** of the expression. -/
theorem Needs.mem_parts {e part : Expr} {c' : Context} (h : Needs d (e, c) (part, c')) :
    part ∈ e.parts := by
  cases h with
  | certain mem => exact Expr.mem_parts_of_certain mem
  | either turn => exact turn.mem
  | both turn => exact turn.mem
  | onPath asked => exact asked.mem
  | filtering value asked => exact List.mem_cons_of_mem _ (List.mem_append_left _ asked.mem)
  | onFilter value left asked => exact List.mem_cons_of_mem _ (List.mem_append_right _ asked.mem)

theorem Step.sizeOf_predicates_lt (s : Step) : sizeOf s.predicates < sizeOf s := by
  obtain ⟨axis, test, predicates⟩ := s
  simp only [Step.predicates, Step.step.sizeOf_spec]
  omega

theorem sizeOf_lt_of_mem_map_snd {β : Type} [SizeOf β] {rest : List (β × Expr)} {part : Expr}
    (h : part ∈ rest.map Prod.snd) : sizeOf part < sizeOf rest := by
  obtain ⟨⟨op, e⟩, hmem, rfl⟩ := List.mem_map.mp h
  have hpair := List.sizeOf_lt_of_mem hmem
  simp only [Prod.mk.sizeOf_spec] at hpair
  show sizeOf e < sizeOf rest
  omega

theorem sizeOf_lt_of_mem_predicates {steps : List Step} {part : Expr}
    (h : part ∈ steps.flatMap Step.predicates) : sizeOf part < sizeOf steps := by
  obtain ⟨s, hs, hpart⟩ := List.mem_flatMap.mp h
  have hsteps := List.sizeOf_lt_of_mem hs
  have hpredicates := List.sizeOf_lt_of_mem hpart
  have hstep := s.sizeOf_predicates_lt
  omega

theorem Expr.sizeOf_lt_of_mem_parts {e part : Expr} (h : part ∈ e.parts) :
    sizeOf part < sizeOf e := by
  cases e with
  | either operands =>
    have hsize : sizeOf part < sizeOf operands := List.sizeOf_lt_of_mem h
    simp only [Expr.either.sizeOf_spec]
    omega
  | both operands =>
    have hsize : sizeOf part < sizeOf operands := List.sizeOf_lt_of_mem h
    simp only [Expr.both.sizeOf_spec]
    omega
  | compare first rest =>
    simp only [Expr.compare.sizeOf_spec]
    rcases List.mem_cons.mp h with rfl | hrest
    · omega
    · have hsize := sizeOf_lt_of_mem_map_snd hrest
      omega
  | arithmetic first rest =>
    simp only [Expr.arithmetic.sizeOf_spec]
    rcases List.mem_cons.mp h with rfl | hrest
    · omega
    · have hsize := sizeOf_lt_of_mem_map_snd hrest
      omega
  | negate operand =>
    rw [List.mem_singleton.mp h]
    simp only [Expr.negate.sizeOf_spec]
    omega
  | union parts =>
    have hsize : sizeOf part < sizeOf parts := List.sizeOf_lt_of_mem h
    simp only [Expr.union.sizeOf_spec]
    omega
  | path absolute steps =>
    have hsize := sizeOf_lt_of_mem_predicates h
    simp only [Expr.path.sizeOf_spec]
    omega
  | filter primary predicates steps =>
    simp only [Expr.filter.sizeOf_spec]
    rcases List.mem_cons.mp h with rfl | hmem
    · omega
    · rcases List.mem_append.mp hmem with hpredicate | hstep
      · have hsize := List.sizeOf_lt_of_mem hpredicate
        omega
      · have hsize := sizeOf_lt_of_mem_predicates hstep
        omega
  | literal text => cases h
  | number value => cases h
  | call f args =>
    have hsize : sizeOf part < sizeOf args := List.sizeOf_lt_of_mem h
    simp only [Expr.call.sizeOf_spec]
    omega

/-! ### Lists of parts -/

/-- Operands that are evaluated in turn fail iff one whose turn comes does. -/
theorem fails_inTurn_iff {goesOn : Value → Bool} (run : List Meaning → Except Fault Value)
    (hnil : ¬ Fails (run []))
    (hcons : ∀ m rest, Fails (run (m :: rest)) ↔
      Fails (m c) ∨ ∃ v, m c = .ok v ∧ goesOn v = true ∧ Fails (run rest))
    (operands : List Expr) : Fails (run (Expr.meanings d operands)) ↔
      ∃ part, TakesTurn d c goesOn operands part ∧ Fails (part.meaning d c) := by
  induction operands with
  | nil =>
    constructor
    · intro h
      exact absurd h hnil
    · rintro ⟨part, turn, -⟩
      cases turn
  | cons operand rest ih =>
    rw [Expr.meanings, hcons, ih]
    constructor
    · rintro (hfails | ⟨v, value, goes, part, turn, hfails⟩)
      · exact ⟨operand, .here, hfails⟩
      · exact ⟨part, .later value goes turn, hfails⟩
    · rintro ⟨part, turn, hfails⟩
      cases turn with
      | here => exact Or.inl hfails
      | later value goes turn => exact Or.inr ⟨_, value, goes, part, turn, hfails⟩

theorem fails_either_iff {operands : List Expr} :
    Fails (Meaning.either (Expr.meanings d operands) c) ↔
      ∃ part, TakesTurn d c (fun v => !v.toBool) operands part ∧ Fails (part.meaning d c) := by
  apply fails_inTurn_iff (fun operands => Meaning.either operands c) (not_fails_ok _)
  intro m rest
  rw [Meaning.either, fails_bind_iff]
  have hif : ∀ v : Value, Fails (if v.toBool then pure (.boolean true) else Meaning.either rest c) ↔
      (!v.toBool) = true ∧ Fails (Meaning.either rest c) := by
    intro v
    cases v.toBool with
    | true => simp
    | false => simp
  simp only [hif]

theorem fails_both_iff {operands : List Expr} :
    Fails (Meaning.both (Expr.meanings d operands) c) ↔
      ∃ part, TakesTurn d c Value.toBool operands part ∧ Fails (part.meaning d c) := by
  apply fails_inTurn_iff (fun operands => Meaning.both operands c) (not_fails_ok _)
  intro m rest
  rw [Meaning.both, fails_bind_iff]
  have hif : ∀ v : Value, Fails (if v.toBool then Meaning.both rest c else pure (.boolean false)) ↔
      v.toBool = true ∧ Fails (Meaning.both rest c) := by
    intro v
    cases v.toBool with
    | true => simp
    | false => simp
  simp only [hif]

theorem exists_operand_iff {β : Type} {rest : List (β × Expr)} {p : Expr → Prop} :
    (∃ part ∈ rest.map Prod.snd, p part) ↔ ∃ operand ∈ rest, p operand.2 := by
  simp only [List.mem_map, exists_exists_and_eq_and]

theorem fails_comparisons_iff (rest : List (Comparison × Expr)) (left : Value) :
    Fails (Meaning.comparisons d (Expr.comparands d rest) left c) ↔
      ∃ part ∈ rest.map Prod.snd, Fails (part.meaning d c) := by
  rw [exists_operand_iff]
  apply fails_each_iff (fun rest left => Meaning.comparisons d (Expr.comparands d rest) left c)
    (fun operand => operand.2.meaning d c)
  · intro left
    exact not_fails_ok _
  · intro operand rest left
    exact ⟨fun right => .boolean (Value.compare d operand.1 left right), fails_bind_iff⟩

theorem fails_calculations_iff (rest : List (Arithmetic × Expr)) (x : Float) :
    Fails (Meaning.calculations d (Expr.terms d rest) x c) ↔
      ∃ part ∈ rest.map Prod.snd, Fails (part.meaning d c) := by
  rw [exists_operand_iff]
  apply fails_each_iff (fun rest x => Meaning.calculations d (Expr.terms d rest) x c)
    (fun operand => operand.2.meaning d c)
  · intro x
    exact not_fails_ok _
  · intro operand rest x
    exact ⟨fun right => Meaning.calculate operand.1 x (right.toNumber d), fails_bind_iff⟩

theorem fails_arguments_iff (args : List Expr) :
    Fails (Meaning.arguments (Expr.meanings d args) c) ↔ ∃ part ∈ args, Fails (part.meaning d c) := by
  apply fails_each_iff (fun args (_ : Unit) => Meaning.arguments (Expr.meanings d args) c)
    (fun part => part.meaning d c) (s := ())
  · intro _
    exact not_fails_ok _
  · intro part rest _
    refine ⟨fun _ => (), ?_⟩
    simp only [Expr.meanings, Meaning.arguments, fails_bind_iff]
    simp

/-- The members of a list of nodes. -/
def Value.nodesOrFault : Value → Except Fault (List Nat)
  | .nodes ids => .ok ids
  | _ => .error .unionOfOthers

/-- A part gives no list of nodes iff it is of another kind or gives nothing. -/
theorem fails_nodes_iff (e : Expr) :
    Fails (e.meaning d c >>= Value.nodesOrFault) ↔ e.kind ≠ .nodes ∨ Fails (e.meaning d c) := by
  cases hvalue : e.meaning d c with
  | error fault => simp
  | ok v =>
    have hkind := e.kind_of_meaning hvalue
    rw [← hkind]
    cases v with
    | nodes ids => simp [Value.nodesOrFault, Value.kind]
    | attributes values => simp [Value.nodesOrFault, Value.kind]
    | text value => simp [Value.nodesOrFault, Value.kind]
    | number value => simp [Value.nodesOrFault, Value.kind]
    | boolean value => simp [Value.nodesOrFault, Value.kind]

theorem fails_collect_iff (parts : List Expr) :
    Fails (Meaning.collect (Expr.meanings d parts) c) ↔
      ∃ part ∈ parts, part.kind ≠ .nodes ∨ Fails (part.meaning d c) := by
  have heach := fails_each_iff (fun parts (_ : Unit) => Meaning.collect (Expr.meanings d parts) c)
    (fun part => part.meaning d c >>= Value.nodesOrFault) (fun _ => not_fails_ok _)
    (by
      intro part rest _
      refine ⟨fun _ => (), ?_⟩
      simp only [Expr.meanings, Meaning.collect]
      cases part.meaning d c with
      | error fault => simp
      | ok v =>
        cases v with
        | nodes ids => simp [Value.nodesOrFault, fails_bind_iff]
        | _ => simp [Value.nodesOrFault])
    parts ()
  simp only [fails_nodes_iff] at heach
  exact heach

/-! ### Predicates and steps -/

/-- A predicate fails iff it does at one of the nodes, at its place. -/
theorem fails_keepFrom_iff {predicate : Meaning} {size position : Nat} :
    Fails (keepFrom predicate size position ns) ↔
      ∃ i n, ns[i]? = some n ∧ Fails (predicate ⟨n, i + position, size⟩) := by
  induction ns generalizing position with
  | nil => simp [keepFrom]
  | cons m rest ih =>
    rw [keepFrom, fails_bind_iff]
    have hrest : ∀ v : Value, Fails (keepFrom predicate size (position + 1) rest >>= fun kept =>
        pure (if v.keeps position then m :: kept else kept)) ↔
          ∃ i n, rest[i]? = some n ∧ Fails (predicate ⟨n, i + 1 + position, size⟩) := by
      intro v
      rw [fails_bind_iff, ih]
      simp [Nat.add_assoc, Nat.add_comm 1 position]
    simp only [hrest, fails_or_ok_and_iff]
    constructor
    · rintro (hfails | ⟨i, n, place, hfails⟩)
      · exact ⟨0, m, rfl, by rwa [Nat.zero_add]⟩
      · exact ⟨i + 1, n, place, hfails⟩
    · rintro ⟨i, n, place, hfails⟩
      cases i with
      | zero =>
        obtain rfl : m = n := by simpa using place
        rw [Nat.zero_add] at hfails
        exact Or.inl hfails
      | succ i => exact Or.inr ⟨i, n, place, hfails⟩

theorem fails_filterBy_iff {predicates : List Expr} :
    Fails (filterBy (Expr.meanings d predicates) ns) ↔
      ∃ part c, IsAsked d predicates ns part c ∧ Fails (part.meaning d c) := by
  induction predicates generalizing ns with
  | nil =>
    constructor
    · intro h
      exact absurd h (not_fails_ok _)
    · rintro ⟨part, c, asked, -⟩
      cases asked
  | cons predicate rest ih =>
    rw [Expr.meanings, filterBy, fails_bind_iff, fails_keepFrom_iff]
    constructor
    · rintro (⟨i, n, place, hfails⟩ | ⟨kept, left, hrest⟩)
      · exact ⟨predicate, _, .here place, hfails⟩
      · obtain ⟨part, c, asked, hfails⟩ := ih.mp hrest
        exact ⟨part, c, .later left asked, hfails⟩
    · rintro ⟨part, c, asked, hfails⟩
      cases asked with
      | here place => exact Or.inl ⟨_, _, place, hfails⟩
      | later left asked => exact Or.inr ⟨_, left, ih.mpr ⟨part, c, asked, hfails⟩⟩

theorem fails_selectAll_iff {s : StepMeaning} :
    Fails (s.selectAll d ns) ↔ ∃ n ∈ ns, Fails (s.select d n) := by
  apply fails_each_iff (fun ns (_ : Unit) => s.selectAll d ns) (fun n => s.select d n) (s := ())
  · intro _
    exact not_fails_ok _
  · intro n rest _
    refine ⟨fun _ => (), ?_⟩
    simp only [StepMeaning.selectAll, fails_bind_iff]
    simp

theorem fails_select_iff {s : Step} {n : Nat} :
    Fails ((s.meaning d).select d n) ↔
      ∃ part c, IsAsked d s.predicates ((s.meaning d).candidates d n) part c ∧
        Fails (part.meaning d c) := by
  obtain ⟨axis, test, predicates⟩ := s
  exact fails_filterBy_iff

/-- **Following steps fails iff a predicate on the way does.** -/
theorem fails_followSteps_iff {steps : List Step} :
    Fails (followSteps d (Step.meanings d steps) ns) ↔
      ∃ part c, IsAskedOnWay d steps ns part c ∧ Fails (part.meaning d c) := by
  induction steps generalizing ns with
  | nil =>
    constructor
    · intro h
      exact absurd h (not_fails_ok _)
    · rintro ⟨part, c, asked, -⟩
      cases asked
  | cons s rest ih =>
    have haxis : (s.meaning d).axis = s.axis := by
      obtain ⟨axis, test, predicates⟩ := s
      rfl
    rw [Step.meanings, followSteps, haxis]
    by_cases hattribute : s.axis = .attribute
    · rw [if_pos hattribute]
      constructor
      · intro h
        exact absurd h (not_fails_ok _)
      · rintro ⟨part, c, asked, -⟩
        cases asked with
        | here isNodeAxis => exact absurd hattribute isNodeAxis
        | later isNodeAxis => exact absurd hattribute isNodeAxis
    · rw [if_neg hattribute, fails_bind_iff, fails_selectAll_iff]
      constructor
      · rintro (⟨n, hn, hselect⟩ | ⟨found, led, hrest⟩)
        · obtain ⟨part, c, asked, hfails⟩ := fails_select_iff.mp hselect
          exact ⟨part, c, .here hattribute hn asked, hfails⟩
        · obtain ⟨part, c, asked, hfails⟩ := ih.mp hrest
          exact ⟨part, c, .later hattribute led asked, hfails⟩
      · rintro ⟨part, c, asked, hfails⟩
        cases asked with
        | here isNodeAxis start asked =>
          exact Or.inl ⟨_, start, fails_select_iff.mpr ⟨part, c, asked, hfails⟩⟩
        | later isNodeAxis led asked =>
          exact Or.inr ⟨_, led, ih.mpr ⟨part, c, asked, hfails⟩⟩

/-! ### Expressions -/

/-- Whether an expression fails with itself or with one of its certain parts. -/
def FailsCertainly (d : Document) (e : Expr) (c : Context) : Prop :=
  e.isMisfit = true ∨ ∃ part ∈ e.certainParts, Fails (part.meaning d c)

theorem fails_compare_iff {first : Expr} {rest : List (Comparison × Expr)} :
    Fails ((Expr.compare first rest).meaning d c) ↔ FailsCertainly d (.compare first rest) c := by
  simp only [Expr.meaning, fails_bind_iff, fails_comparisons_iff, fails_or_ok_and_iff,
    FailsCertainly, Expr.isMisfit, Expr.certainParts, List.mem_cons, exists_eq_or_imp]
  simp

theorem fails_arithmetic_iff {first : Expr} {rest : List (Arithmetic × Expr)} :
    Fails ((Expr.arithmetic first rest).meaning d c) ↔
      FailsCertainly d (.arithmetic first rest) c := by
  simp only [Expr.meaning, fails_bind_iff, fails_calculations_iff, fails_or_ok_and_iff,
    FailsCertainly, Expr.isMisfit, Expr.certainParts, List.mem_cons, exists_eq_or_imp]
  simp

theorem fails_negate_iff {operand : Expr} :
    Fails ((Expr.negate operand).meaning d c) ↔ FailsCertainly d (.negate operand) c := by
  simp [Expr.meaning, fails_bind_iff, FailsCertainly, Expr.isMisfit, Expr.certainParts]

theorem fails_union_iff {parts : List Expr} :
    Fails ((Expr.union parts).meaning d c) ↔ FailsCertainly d (.union parts) c := by
  simp only [Expr.meaning, fails_bind_iff, fails_collect_iff, pure_eq_ok, not_fails_ok, and_false,
    exists_false, or_false]
  simp only [FailsCertainly, Expr.isMisfit, Expr.certainParts, List.any_eq_true, bne_iff_ne]
  simp only [and_or_left, exists_or]

/-- The first argument of a call has the kind of its expression. -/
theorem kind_of_arguments {args : List Expr} {values : List Value}
    (h : Meaning.arguments (Expr.meanings d args) c = .ok values) :
    values.head?.map Value.kind = args.head?.map Expr.kind := by
  cases args with
  | nil =>
    obtain rfl := Except.ok.inj h
    rfl
  | cons first rest =>
    obtain ⟨v, hv, h⟩ := bind_eq_ok_iff.mp h
    obtain ⟨more, -, h⟩ := bind_eq_ok_iff.mp h
    obtain rfl := Except.ok.inj h
    exact congrArg some (first.kind_of_meaning hv)

theorem fails_call_iff {f : Function} {args : List Expr} :
    Fails ((Expr.call f args).meaning d c) ↔ FailsCertainly d (.call f args) c := by
  simp only [Expr.meaning, fails_bind_iff, fails_apply_iff, FailsCertainly, Expr.isMisfit,
    Expr.certainParts, Bool.not_eq_true', ← fails_arguments_iff]
  rcases fails_or_ok (Meaning.arguments (Expr.meanings d args) c) with hfails | ⟨values, hvalues⟩
  · simp [hfails]
  · rw [← kind_of_arguments hvalues, hvalues]
    simp

/-- A filter fails before its predicates, in them, or in the steps after them. -/
theorem fails_filter_iff {primary : Expr} {predicates : List Expr} {steps : List Step} :
    Fails ((Expr.filter primary predicates steps).meaning d c) ↔
      primary.kind ≠ .nodes ∨ Fails (primary.meaning d c) ∨
      ∃ ids, primary.meaning d c = .ok (.nodes ids) ∧
        (Fails (filterBy (Expr.meanings d predicates) ids) ∨
          ∃ kept, filterBy (Expr.meanings d predicates) ids = .ok kept ∧
            Fails (followSteps d (Step.meanings d steps) kept)) := by
  simp only [Expr.meaning]
  cases hvalue : primary.meaning d c with
  | error fault => simp
  | ok v =>
    rw [← primary.kind_of_meaning hvalue]
    cases v with
    | nodes ids => simp [fails_bind_iff, Value.kind]
    | attributes values => simp [Value.kind]
    | text value => simp [Value.kind]
    | number value => simp [Value.kind]
    | boolean value => simp [Value.kind]

/-- An expression that needs certain parts only. -/
theorem fails_iff_of_certain {e : Expr} (h : Fails (e.meaning d c) ↔ FailsCertainly d e c)
    (honly : ∀ part c', Needs d (e, c) (part, c') → part ∈ e.certainParts ∧ c' = c) :
    Fails (e.meaning d c) ↔ e.isMisfit = true ∨
      ∃ part c', Needs d (e, c) (part, c') ∧ Fails (part.meaning d c') := by
  rw [h]
  constructor
  · rintro (hmisfit | ⟨part, hmem, hfails⟩)
    · exact Or.inl hmisfit
    · exact Or.inr ⟨part, c, .certain hmem, hfails⟩
  · rintro (hmisfit | ⟨part, c', hneeds, hfails⟩)
    · exact Or.inl hmisfit
    · obtain ⟨hmem, rfl⟩ := honly part c' hneeds
      exact Or.inr ⟨part, hmem, hfails⟩

/-- **An evaluation fails iff the expression is a misfit, or a part that it needs fails.** -/
theorem Expr.fails_iff (e : Expr) (c : Context) : Fails (e.meaning d c) ↔
    e.isMisfit = true ∨ ∃ part c', Needs d (e, c) (part, c') ∧ Fails (part.meaning d c') := by
  cases e with
  | either operands =>
    rw [meaning, fails_either_iff]
    constructor
    · rintro ⟨part, turn, hfails⟩
      exact Or.inr ⟨part, c, .either turn, hfails⟩
    · rintro (hmisfit | ⟨part, c', hneeds, hfails⟩)
      · cases hmisfit
      · cases hneeds with
        | either turn => exact ⟨part, turn, hfails⟩
        | certain mem => exact ⟨part, .of_head mem, hfails⟩
  | both operands =>
    rw [meaning, fails_both_iff]
    constructor
    · rintro ⟨part, turn, hfails⟩
      exact Or.inr ⟨part, c, .both turn, hfails⟩
    · rintro (hmisfit | ⟨part, c', hneeds, hfails⟩)
      · cases hmisfit
      · cases hneeds with
        | both turn => exact ⟨part, turn, hfails⟩
        | certain mem => exact ⟨part, .of_head mem, hfails⟩
  | compare first rest =>
    refine fails_iff_of_certain fails_compare_iff ?_
    rintro part c' (mem | _)
    exact ⟨mem, rfl⟩
  | arithmetic first rest =>
    refine fails_iff_of_certain fails_arithmetic_iff ?_
    rintro part c' (mem | _)
    exact ⟨mem, rfl⟩
  | negate operand =>
    refine fails_iff_of_certain fails_negate_iff ?_
    rintro part c' (mem | _)
    exact ⟨mem, rfl⟩
  | union parts =>
    refine fails_iff_of_certain fails_union_iff ?_
    rintro part c' (mem | _)
    exact ⟨mem, rfl⟩
  | path absolute steps =>
    rw [meaning, fails_followSteps_iff]
    constructor
    · rintro ⟨part, c', asked, hfails⟩
      exact Or.inr ⟨part, c', .onPath asked, hfails⟩
    · rintro (hmisfit | ⟨part, c', hneeds, hfails⟩)
      · cases hmisfit
      · cases hneeds with
        | onPath asked => exact ⟨part, c', asked, hfails⟩
        | certain mem => cases mem
  | filter primary predicates steps =>
    rw [fails_filter_iff]
    simp only [fails_filterBy_iff, fails_followSteps_iff, isMisfit, bne_iff_ne]
    constructor
    · rintro (hkind | hfails | ⟨ids, value, ⟨part, c', asked, hfails⟩ |
        ⟨kept, left, part, c', asked, hfails⟩⟩)
      · exact Or.inl hkind
      · exact Or.inr ⟨primary, c, .certain (List.mem_singleton_self _), hfails⟩
      · exact Or.inr ⟨part, c', .filtering value asked, hfails⟩
      · exact Or.inr ⟨part, c', .onFilter value left asked, hfails⟩
    · rintro (hkind | ⟨part, c', hneeds, hfails⟩)
      · exact Or.inl hkind
      · cases hneeds with
        | certain mem =>
          rw [List.mem_singleton.mp mem] at hfails
          exact Or.inr (Or.inl hfails)
        | filtering value asked =>
          exact Or.inr (Or.inr ⟨_, value, Or.inl ⟨part, c', asked, hfails⟩⟩)
        | onFilter value left asked =>
          exact Or.inr (Or.inr ⟨_, value, Or.inr ⟨_, left, part, c', asked, hfails⟩⟩)
  | literal text =>
    refine fails_iff_of_certain ?_ ?_
    · simp [meaning, FailsCertainly, isMisfit, certainParts]
    · rintro part c' (mem | _)
      exact ⟨mem, rfl⟩
  | number value =>
    refine fails_iff_of_certain ?_ ?_
    · simp [meaning, FailsCertainly, isMisfit, certainParts]
    · rintro part c' (mem | _)
      exact ⟨mem, rfl⟩
  | call f args =>
    refine fails_iff_of_certain fails_call_iff ?_
    rintro part c' (mem | _)
    exact ⟨mem, rfl⟩

/-! ### Misfits that are reached -/

/-- **An evaluation fails iff it comes to a misfit.** -/
theorem Expr.fails_iff_reaches (e : Expr) (c : Context) : Fails (e.meaning d c) ↔
    ∃ part c', Reaches d (e, c) (part, c') ∧ part.isMisfit = true := by
  constructor
  · -- A part is smaller than the expression, so the search for the misfit ends.
    induction hsize : sizeOf e using Nat.strongRecOn generalizing e c with
    | ind size ih =>
      intro hfails
      rcases (e.fails_iff c).mp hfails with hmisfit | ⟨part, c', hneeds, hpart⟩
      · exact ⟨e, c, .refl, hmisfit⟩
      · have hlt := Expr.sizeOf_lt_of_mem_parts hneeds.mem_parts
        obtain ⟨misfit, c'', hreaches, hmisfit⟩ := ih _ (hsize ▸ hlt) part c' rfl hpart
        exact ⟨misfit, c'', .head hneeds hreaches, hmisfit⟩
  · rintro ⟨misfit, c', hreaches, hmisfit⟩
    generalize hlast : (misfit, c') = last at hreaches
    generalize hfirst : (e, c) = first at hreaches
    induction hreaches using Relation.ReflTransGen.head_induction_on generalizing e c with
    | refl =>
      obtain ⟨rfl, rfl⟩ := Prod.mk.inj (hfirst.trans hlast.symm)
      exact (e.fails_iff c).mpr (Or.inl hmisfit)
    | @head _ next hneeds hreaches ih =>
      obtain ⟨part, c''⟩ := next
      subst hfirst
      exact (e.fails_iff c).mpr (Or.inr ⟨part, c'', hneeds, ih part c'' rfl⟩)

/-! ### What the expression says alone -/

theorem Expr.fits_of_reaches {e part : Expr} {c c' : Context} (hfits : e.fits = true)
    (h : Reaches d (e, c) (part, c')) : part.fits = true := by
  generalize hlast : (part, c') = last at h
  induction h generalizing part c' with
  | refl =>
    obtain ⟨rfl, rfl⟩ := Prod.mk.inj hlast
    exact hfits
  | @tail middle _ hreaches hneeds ih =>
    obtain ⟨before, c''⟩ := middle
    subst hlast
    exact (Expr.fits_iff.mp (ih rfl)).2 part hneeds.mem_parts

/-- **An expression without misfits has a value** over every document. -/
theorem Expr.not_fails_of_fits {e : Expr} (hfits : e.fits = true) (c : Context) :
    ¬ Fails (e.meaning d c) := by
  rw [e.fails_iff_reaches c]
  rintro ⟨part, c', hreaches, hmisfit⟩
  have hpart := (Expr.fits_iff.mp (Expr.fits_of_reaches hfits hreaches)).1
  rw [hmisfit] at hpart
  cases hpart

/-- An expression has a misfit among the parts that are wanted over every document, or is one. -/
def Expr.IsCertainMisfit (e : Expr) : Prop :=
  ∃ misfit, Relation.ReflTransGen (fun e part => part ∈ e.certainParts) e misfit ∧
    misfit.isMisfit = true

/-- **It has no value** over any document. -/
theorem Expr.IsCertainMisfit.fails {e : Expr} (h : e.IsCertainMisfit) (c : Context) :
    Fails (e.meaning d c) := by
  obtain ⟨misfit, hcertain, hmisfit⟩ := h
  have hreaches : Reaches d (e, c) (misfit, c) := by
    clear hmisfit
    induction hcertain with
    | refl => exact .refl
    | tail hreaches mem ih => exact ih.tail (.certain mem)
  exact (e.fails_iff_reaches c).mpr ⟨misfit, c, hreaches, hmisfit⟩

end ScreenInspector.Expression
