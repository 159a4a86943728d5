/-
  ScreenInspector/Proofs/ExpressionLayers.lean
  ============================================
  **Parsed expressions, node by node.**

  The shapes of parsed expressions have a level for each level of binding, but most of these levels
  add nothing to an expression.  What a level can add is a node, and then the node is orderly: it has
  operands, its call has the right number of arguments, its steps lead to attributes only at their
  end.  So between an expression and the expressions in its brackets there are layers of nodes, each
  orderly and with parts in the layer below (`layers_of_either`).

  What holds of expressions by looking at their nodes from the brackets outwards follows from there
  by induction on the number of layers, and no level of binding has to be looked at again.
-/
import ScreenInspector.Proofs.ParsedExpressions
import ScreenInspector.Proofs.ValueKinds

namespace ScreenInspector.Expression

/-! ### Orderly nodes -/

/-- Only the last step leads to attributes, and it does so without conditions. -/
def Step.AreOrderly (steps : List Step) : Prop :=
  ∀ before s after, steps = before ++ s :: after → s.axis = .attribute →
    after = [] ∧ s.predicates = [] ∧ s.test ≠ .text

/-- Operators have operands, calls have as many arguments as their functions take, something is done
in filters, and steps are orderly. -/
def Expr.IsOrderly : Expr → Prop
  | .either operands => 2 ≤ operands.length
  | .both operands => 2 ≤ operands.length
  | .compare _ rest => rest ≠ []
  | .arithmetic _ rest => rest ≠ []
  | .negate _ => True
  | .union parts => 2 ≤ parts.length
  | .path _ steps => Step.AreOrderly steps
  | .filter _ predicates steps => Step.AreOrderly steps ∧ (predicates ≠ [] ∨ steps ≠ [])
  | .literal _ => True
  | .number _ => True
  | .call f args =>
    f.arity.1 ≤ args.length ∧ ∀ most, f.arity.2 = some most → args.length ≤ most

theorem areOrderly_of_isSteps {N : Expr → Prop} {steps : List Step}
    (hsteps : Shape.IsSteps N steps) : Step.AreOrderly steps := by
  rintro before s after rfl haxis
  have hmem : s ∈ before ++ s :: after := List.mem_append_right _ List.mem_cons_self
  obtain ⟨htest, hpredicates⟩ := (hsteps.each s hmem).attributePlain haxis
  refine ⟨?_, hpredicates, htest⟩
  cases after with
  | nil => rfl
  | cons next after =>
    have hearly : s ∈ (before ++ s :: next :: after).dropLast := by
      rw [List.dropLast_append_of_ne_nil (List.cons_ne_nil _ _), List.dropLast_cons_cons]
      exact List.mem_append_right _ List.mem_cons_self
    exact absurd haxis (hsteps.attributeLast s hearly)

theorem isOrderly_of_accepts {f : Function} {args : List Expr}
    (h : f.accepts args.length = true) : (Expr.call f args).IsOrderly := by
  rw [Function.accepts, Bool.and_eq_true, decide_eq_true_eq] at h
  refine ⟨h.1, ?_⟩
  intro most hmost
  rw [hmost] at h
  exact of_decide_eq_true h.2

/-! ### Layers -/

/-- An expression with so many layers of orderly nodes, at most, around others. -/
def Layers (N : Expr → Prop) : Nat → Expr → Prop
  | 0, e => N e
  | n + 1, e => Layers N n e ∨ (e.IsOrderly ∧ ∀ part ∈ e.parts, Layers N n part)

variable {N operand : Expr → Prop} {n : Nat} {e : Expr}

theorem Layers.add (h : Layers N n e) (more : Nat) : Layers N (n + more) e := by
  induction more with
  | zero => exact h
  | succ more ih => exact Or.inl ih

theorem layers_of_joined {wrap : List Expr → Expr}
    (hparts : ∀ operands, (wrap operands).parts = operands)
    (horderly : ∀ operands, 2 ≤ operands.length → (wrap operands).IsOrderly)
    (h : ∀ e, operand e → Layers N n e) (he : Shape.Joined wrap operand e) :
    Layers N (n + 1) e := by
  cases he with
  | single he => exact Or.inl (h _ he)
  | several hoperands hlength =>
    right
    constructor
    · exact horderly _ hlength
    · intro part hpart
      rw [hparts] at hpart
      exact h part (hoperands part hpart)

theorem layers_of_chained {β : Type} {wrap : Expr → List (β × Expr) → Expr}
    (hparts : ∀ first rest, (wrap first rest).parts = first :: rest.map Prod.snd)
    (horderly : ∀ first rest, rest ≠ [] → (wrap first rest).IsOrderly)
    (h : ∀ e, operand e → Layers N n e) (he : Shape.Chained wrap operand e) :
    Layers N (n + 1) e := by
  cases he with
  | single he => exact Or.inl (h _ he)
  | several hfirst hrest hsome =>
    right
    constructor
    · exact horderly _ _ hsome
    · intro part hpart
      rw [hparts] at hpart
      rcases List.mem_cons.mp hpart with rfl | hpart
      · exact h _ hfirst
      · exact h part (hrest part hpart)

theorem Layers.negate (h : Layers N n e) : Layers N (n + 1) (.negate e) := by
  right
  constructor
  · trivial
  · intro part hpart
    obtain rfl := List.mem_singleton.mp hpart
    exact h

theorem layers_of_signed (h : ∀ e, operand e → Layers N n e) (he : Shape.Signed operand e) :
    Layers N (n + 2) e := by
  cases he with
  | plain he => exact (h _ he).add 2
  | once he => exact (h _ he).negate.add 1
  | twice he => exact (h _ he).negate.negate

theorem layers_of_primary (he : Shape.Primary N e) : Layers N 1 e := by
  cases he with
  | parenthesized he => exact Or.inl he
  | literal text => exact Or.inr ⟨trivial, List.forall_mem_nil _⟩
  | number value => exact Or.inr ⟨trivial, List.forall_mem_nil _⟩
  | call hargs haccepts => exact Or.inr ⟨isOrderly_of_accepts haccepts, hargs⟩

theorem of_mem_predicates {steps : List Step} (hsteps : Shape.IsSteps N steps) :
    ∀ part ∈ steps.flatMap Step.predicates, N part := by
  intro part hpart
  obtain ⟨s, hs, hpart⟩ := List.mem_flatMap.mp hpart
  exact (hsteps.each s hs).predicates part hpart

theorem layers_of_path (he : Shape.Path N e) : Layers N 2 e := by
  cases he with
  | path absolute hsteps =>
    exact Or.inl (Or.inr ⟨areOrderly_of_isSteps hsteps, of_mem_predicates hsteps⟩)
  | filter he =>
    cases he with
    | primary he => exact Or.inl (layers_of_primary he)
    | filter hprimary hpredicates hsteps hsome =>
      right
      constructor
      · exact ⟨areOrderly_of_isSteps hsteps, hsome⟩
      · intro part hpart
        rcases List.mem_cons.mp hpart with rfl | hpart
        · exact layers_of_primary hprimary
        · rcases List.mem_append.mp hpart with hpart | hpart
          · exact Or.inl (hpredicates part hpart)
          · exact Or.inl (of_mem_predicates hsteps part hpart)

/-- **Eleven layers stand around the expressions in brackets**, at most: two for paths and filters,
two for signs and one for each other level of binding. -/
theorem layers_of_either (he : Shape.Either N e) : Layers N 11 e := by
  have hunion : ∀ e, Shape.Union N e → Layers N 3 e :=
    fun _ => layers_of_joined (fun _ => rfl) (fun _ => id) fun _ => layers_of_path
  have hsign : ∀ e, Shape.Sign N e → Layers N 5 e := fun _ => layers_of_signed hunion
  have hproduct : ∀ e, Shape.Product N e → Layers N 6 e :=
    fun _ => layers_of_chained (fun _ _ => rfl) (fun _ _ => id) hsign
  have hsum : ∀ e, Shape.Sum N e → Layers N 7 e :=
    fun _ => layers_of_chained (fun _ _ => rfl) (fun _ _ => id) hproduct
  have horder : ∀ e, Shape.Order N e → Layers N 8 e :=
    fun _ => layers_of_chained (fun _ _ => rfl) (fun _ _ => id) hsum
  have hequality : ∀ e, Shape.Equality N e → Layers N 9 e :=
    fun _ => layers_of_chained (fun _ _ => rfl) (fun _ _ => id) horder
  have hboth : ∀ e, Shape.Both N e → Layers N 10 e :=
    fun _ => layers_of_joined (fun _ => rfl) (fun _ => id) hequality
  exact layers_of_joined (fun _ => rfl) (fun _ => id) hboth he

end ScreenInspector.Expression
