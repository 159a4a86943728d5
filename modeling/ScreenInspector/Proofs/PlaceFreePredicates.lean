/-
  ScreenInspector/Proofs/PlaceFreePredicates.lean
  ===============================================
  **Predicates that do not ask for their place.**

  The value of an expression depends on the place of its node only through calls of `position` and
  `last`.  A call inside a predicate of the expression asks for another place, the one among the
  nodes that this predicate is asked about.  So only the parts count that are evaluated at the place
  of the whole (`Expr.outerParts`), and without such a call among them an expression has one value
  at a node (`Expr.meaning_at_node`).

  A predicate whose value depends on the node alone and is no number judges every node for itself
  (`Meaning.JudgesNodes`).  What such predicates leave of a list, and whether one of them fails on
  it, is decided node by node (`Meaning.mem_leavesAll_iff`, `Meaning.succeedAll_iff`).
-/
import ScreenInspector.Proofs.NeededParts

namespace ScreenInspector.Expression

open ScreenInspector.Markup (Document)

variable {d : Document} {c c' : Context}

/-! ### Expressions without a place -/

/-- The parts that are evaluated at the place of the whole expression. -/
def Expr.outerParts : Expr → List Expr
  | .path _ _ => []
  | .filter primary _ _ => [primary]
  | e => e.parts

def Expr.asksPlace : Expr → Bool
  | .call .position _ | .call .last _ => true
  | _ => false

/-- `position` and `last` are called in predicates only. -/
def Expr.IsPlaceFree (e : Expr) : Prop :=
  ∀ part, Relation.ReflTransGen (fun e part => part ∈ e.outerParts) e part → part.asksPlace = false

theorem Expr.isPlaceFree_iff {e : Expr} : e.IsPlaceFree ↔
    e.asksPlace = false ∧ ∀ part ∈ e.outerParts, part.IsPlaceFree :=
  forall_reachable_iff

theorem Expr.outerParts_subset (e : Expr) : e.outerParts ⊆ e.parts := by
  cases e with
  | path absolute steps => exact List.nil_subset _
  | filter primary predicates steps =>
    intro part hpart
    rw [List.mem_singleton.mp hpart]
    exact List.mem_cons_self
  | _ => exact List.Subset.refl _

/-! ### Operands with the same values -/

/-- What is made of the values of parts one after the other is the same at two contexts if these
values are. -/
theorem each_congr {ι γ β : Type} (run : List ι → γ → Context → β) (part : ι → Expr)
    (hnil : ∀ s c c', run [] s c = run [] s c')
    (hcons : ∀ i rest, ∃ step : γ → Except Fault Value → (γ → β) → β, ∀ s c,
      run (i :: rest) s c = step s ((part i).meaning d c) fun s => run rest s c)
    {items : List ι} (h : ∀ i ∈ items, (part i).meaning d c = (part i).meaning d c') (s : γ) :
    run items s c = run items s c' := by
  induction items generalizing s with
  | nil => exact hnil s c c'
  | cons i rest ih =>
    obtain ⟨step, hstep⟩ := hcons i rest
    obtain ⟨hi, hrest⟩ := List.forall_mem_cons.mp h
    have hlater : (fun s => run rest s c) = fun s => run rest s c' := funext (ih hrest)
    rw [hstep, hstep, hi, hlater]

section Operands

variable {operands : List Expr}

theorem either_congr (h : ∀ e ∈ operands, e.meaning d c = e.meaning d c') :
    Meaning.either (Expr.meanings d operands) c = Meaning.either (Expr.meanings d operands) c' := by
  refine each_congr (fun operands (_ : Unit) => Meaning.either (Expr.meanings d operands)) id
    (fun _ _ _ => rfl) ?_ h ()
  intro e rest
  refine ⟨fun _ value later => do
    let v ← value
    if v.toBool then pure (.boolean true) else later (), ?_⟩
  exact fun _ _ => rfl

theorem both_congr (h : ∀ e ∈ operands, e.meaning d c = e.meaning d c') :
    Meaning.both (Expr.meanings d operands) c = Meaning.both (Expr.meanings d operands) c' := by
  refine each_congr (fun operands (_ : Unit) => Meaning.both (Expr.meanings d operands)) id
    (fun _ _ _ => rfl) ?_ h ()
  intro e rest
  refine ⟨fun _ value later => do
    let v ← value
    if v.toBool then later () else pure (.boolean false), ?_⟩
  exact fun _ _ => rfl

theorem collect_congr (h : ∀ e ∈ operands, e.meaning d c = e.meaning d c') :
    Meaning.collect (Expr.meanings d operands) c =
      Meaning.collect (Expr.meanings d operands) c' := by
  refine each_congr (fun operands (_ : Unit) => Meaning.collect (Expr.meanings d operands)) id
    (fun _ _ _ => rfl) ?_ h ()
  intro e rest
  refine ⟨fun _ value later => do
    let ids ← value >>= Value.nodesOrFault
    let more ← later ()
    pure (ids ++ more), ?_⟩
  intro _ c
  rw [Expr.meanings, Meaning.collect, id]
  cases e.meaning d c with
  | error fault => rfl
  | ok v => cases v <;> rfl

theorem arguments_congr (h : ∀ e ∈ operands, e.meaning d c = e.meaning d c') :
    Meaning.arguments (Expr.meanings d operands) c =
      Meaning.arguments (Expr.meanings d operands) c' := by
  refine each_congr (fun operands (_ : Unit) => Meaning.arguments (Expr.meanings d operands)) id
    (fun _ _ _ => rfl) ?_ h ()
  intro e rest
  refine ⟨fun _ value later => do
    let v ← value
    let more ← later ()
    pure (v :: more), ?_⟩
  exact fun _ _ => rfl

theorem comparisons_congr {rest : List (Comparison × Expr)}
    (h : ∀ e ∈ rest.map Prod.snd, e.meaning d c = e.meaning d c') (left : Value) :
    Meaning.comparisons d (Expr.comparands d rest) left c =
      Meaning.comparisons d (Expr.comparands d rest) left c' := by
  refine each_congr (fun rest left => Meaning.comparisons d (Expr.comparands d rest) left) Prod.snd
    (fun _ _ _ => rfl) ?_ (List.forall_mem_map.mp h) left
  rintro ⟨op, e⟩ rest
  refine ⟨fun left value later => do
    let right ← value
    later (.boolean (Value.compare d op left right)), ?_⟩
  exact fun _ _ => rfl

theorem calculations_congr {rest : List (Arithmetic × Expr)}
    (h : ∀ e ∈ rest.map Prod.snd, e.meaning d c = e.meaning d c') (x : Float) :
    Meaning.calculations d (Expr.terms d rest) x c =
      Meaning.calculations d (Expr.terms d rest) x c' := by
  refine each_congr (fun rest x => Meaning.calculations d (Expr.terms d rest) x) Prod.snd
    (fun _ _ _ => rfl) ?_ (List.forall_mem_map.mp h) x
  rintro ⟨op, e⟩ rest
  refine ⟨fun x value later => do
    let right ← value
    later (Meaning.calculate op x (right.toNumber d)), ?_⟩
  exact fun _ _ => rfl

/-- All other functions look at the node alone. -/
theorem apply_at_node {f : Function} (hfree : (Expr.call f operands).asksPlace = false)
    (hnode : c.node = c'.node) (values : List Value) :
    f.apply d c values = f.apply d c' values := by
  cases f with
  | position => cases hfree
  | last => cases hfree
  | _ => simp only [Function.apply, textArgument, hnode]

end Operands

/-- **An expression that does not ask for its place** has the same value at all places of a node. -/
theorem Expr.meaning_at_node {e : Expr} (hfree : e.IsPlaceFree) (hnode : c.node = c'.node) :
    e.meaning d c = e.meaning d c' := by
  induction hsize : sizeOf e using Nat.strongRecOn generalizing e with
  | ind size ih =>
    subst hsize
    obtain ⟨hself, hparts⟩ := Expr.isPlaceFree_iff.mp hfree
    have hsame : ∀ part ∈ e.outerParts, part.meaning d c = part.meaning d c' := by
      intro part hpart
      have hlt := Expr.sizeOf_lt_of_mem_parts (e.outerParts_subset hpart)
      exact ih _ hlt (hparts part hpart) rfl
    -- Predicates and steps are evaluated at places of their own, so they need no hypothesis.
    cases e with
    | either operands => exact either_congr hsame
    | both operands => exact both_congr hsame
    | compare first rest =>
      obtain ⟨hfirst, hrest⟩ := List.forall_mem_cons.mp hsame
      simp only [meaning, hfirst, comparisons_congr hrest]
    | arithmetic first rest =>
      obtain ⟨hfirst, hrest⟩ := List.forall_mem_cons.mp hsame
      simp only [meaning, hfirst, calculations_congr hrest]
    | negate operand =>
      have hoperand := hsame operand List.mem_cons_self
      simp only [meaning, hoperand]
    | union parts =>
      have hcollect := collect_congr (show ∀ e ∈ parts, _ from hsame)
      simp only [meaning, hcollect]
    | path absolute steps => simp only [meaning, hnode]
    | filter primary predicates steps =>
      have hprimary := hsame primary List.mem_cons_self
      simp only [meaning, hprimary]
    | literal text => rfl
    | number value => rfl
    | call f args =>
      have harguments := arguments_congr (show ∀ e ∈ args, _ from hsame)
      simp only [meaning, harguments, apply_at_node hself hnode]

/-! ### Predicates that judge nodes -/

namespace Meaning

/-- A predicate has one value at a node, which is no number. -/
structure JudgesNodes (predicate : Meaning) : Prop where
  alike : ∀ {c c' : Context}, c.node = c'.node → predicate c = predicate c'
  isNumber_eq : ∀ {c v}, predicate c = .ok v → v.isNumber = false

/-- Whether a predicate keeps a node that it is asked about alone. -/
def accepts (predicate : Meaning) (n : Nat) : Bool :=
  predicate.keepsAt 1 (n, 1)

variable {predicate : Meaning} {predicates : List Meaning} {ns : List Nat} {n : Nat}

theorem JudgesNodes.keepsAt_eq (h : predicate.JudgesNodes) (size : Nat) (x : Nat × Nat) :
    predicate.keepsAt size x = predicate.accepts x.1 := by
  have hsame : predicate ⟨x.1, x.2, size⟩ = predicate ⟨x.1, 1, 1⟩ := h.alike rfl
  rw [accepts, keepsAt, keepsAt, hsame]
  cases hvalue : predicate ⟨x.1, 1, 1⟩ with
  | error fault => rfl
  | ok v =>
    have hnumber := h.isNumber_eq hvalue
    cases v with
    | number value => cases hnumber
    | _ => rfl

theorem JudgesNodes.leaves_eq (h : predicate.JudgesNodes) (ns : List Nat) :
    predicate.leaves ns = ns.filter predicate.accepts := by
  have hkeeps : predicate.keepsAt ns.length = predicate.accepts ∘ Prod.fst :=
    funext fun x => h.keepsAt_eq _ x
  rw [leaves, hkeeps, ← List.filter_map, List.zipIdx_map_fst]

theorem JudgesNodes.succeedsOn_iff (h : predicate.JudgesNodes) (size : Nat) :
    predicate.SucceedsOn size (ns.zipIdx 1) ↔ ∀ n ∈ ns, ∃ v, predicate ⟨n, 1, 1⟩ = .ok v := by
  have hsame : ∀ x : Nat × Nat, predicate ⟨x.1, x.2, size⟩ = predicate ⟨x.1, 1, 1⟩ :=
    fun x => h.alike rfl
  simp only [SucceedsOn, hsame]
  constructor
  · intro hall n hn
    rw [← List.zipIdx_map_fst 1 ns] at hn
    obtain ⟨x, hx, rfl⟩ := List.mem_map.mp hn
    exact hall x hx
  · intro hall x hx
    exact hall x.1 (List.fst_mem_of_mem_zipIdx hx)

/-- Predicates fail on a list iff they do on one of its nodes alone. -/
theorem succeedAll_iff (h : ∀ predicate ∈ predicates, predicate.JudgesNodes) :
    SucceedAll predicates ns ↔ ∀ n ∈ ns, SucceedAll predicates [n] := by
  induction predicates generalizing ns with
  | nil => simp [SucceedAll]
  | cons predicate rest ih =>
    obtain ⟨hfirst, hrest⟩ := List.forall_mem_cons.mp h
    have hlater : ∀ ns, SucceedAll rest (predicate.leaves ns) ↔
        ∀ n ∈ ns, predicate.accepts n = true → SucceedAll rest [n] := by
      intro ns
      rw [ih hrest, hfirst.leaves_eq]
      simp only [List.mem_filter, and_imp]
    simp only [SucceedAll, hfirst.succeedsOn_iff, hlater, List.mem_singleton, forall_eq]
    exact forall₂_and.symm

/-- A node is left of a list iff it is left of itself alone. -/
theorem mem_leavesAll_iff (h : ∀ predicate ∈ predicates, predicate.JudgesNodes) :
    n ∈ leavesAll predicates ns ↔ n ∈ ns ∧ n ∈ leavesAll predicates [n] := by
  induction predicates generalizing ns with
  | nil => simp [leavesAll]
  | cons predicate rest ih =>
    obtain ⟨hfirst, hrest⟩ := List.forall_mem_cons.mp h
    have hlater : ∀ ns, n ∈ leavesAll (predicate :: rest) ns ↔
        (n ∈ ns ∧ predicate.accepts n = true) ∧ n ∈ leavesAll rest [n] := by
      intro ns
      rw [leavesAll, List.foldl_cons, ← leavesAll, ih hrest, hfirst.leaves_eq, List.mem_filter]
    rw [hlater, hlater, List.mem_singleton]
    simp only [true_and, and_assoc]

end Meaning

theorem Expr.mem_meanings_iff {es : List Expr} {m : Meaning} :
    m ∈ Expr.meanings d es ↔ ∃ e ∈ es, m = e.meaning d := by
  induction es with
  | nil => simp [meanings]
  | cons e rest ih => simp [meanings, ih]

/-- Expressions that do not ask for their place judge nodes, if they have no numbers as values. -/
theorem Expr.judgesNodes_of_mem {predicates : List Expr}
    (hfree : ∀ e ∈ predicates, e.IsPlaceFree)
    (hvalues : ∀ e ∈ predicates, ∀ c v, e.meaning d c = .ok v → v.isNumber = false) :
    ∀ predicate ∈ Expr.meanings d predicates, predicate.JudgesNodes := by
  intro predicate hmem
  obtain ⟨e, he, rfl⟩ := Expr.mem_meanings_iff.mp hmem
  exact ⟨fun hnode => e.meaning_at_node (hfree e he) hnode, fun h => hvalues e he _ _ h⟩

end ScreenInspector.Expression
