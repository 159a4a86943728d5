/-
  ScreenInspector/Proofs/ValueKinds.lean
  ======================================
  **The kind of a value is written in its expression.**

  An expression may have a value over one document and none over another, but whatever value it has
  is of one kind (`Expr.kind_of_meaning`).  So it can be read off an expression whether its parts fit
  it: a union wants lists of nodes, what predicates or steps follow as well, and `count`, `name` and
  `local-name` are particular about their argument.  An expression with a part of another kind is a
  misfit.

  `Expr.fits` looks for misfits among all parts of an expression, at any depth.
-/
import ScreenInspector.Proofs.NodeSets

namespace ScreenInspector.Expression

open ScreenInspector.Markup (Document)

/-! ### Kinds -/

/-- The five kinds of values. -/
inductive Kind where
  | nodes
  | attributes
  | text
  | number
  | boolean
deriving DecidableEq, Repr

def Value.kind : Value → Kind
  | .nodes _ => .nodes
  | .attributes _ => .attributes
  | .text _ => .text
  | .number _ => .number
  | .boolean _ => .boolean

/-- The kind of what a function gives. -/
def Function.kind : Function → Kind
  | .last | .position | .count | .number | .stringLength => .number
  | .not | .true | .false | .boolean | .contains | .startsWith => .boolean
  | .string | .concat | .normalizeSpace | .name | .localName => .text

/-- The kind of what steps lead to. -/
def Step.kindOf (steps : List Step) : Kind :=
  if steps.any fun s => s.axis == .attribute then .attributes else .nodes

/-- The kind of the values of an expression. -/
def Expr.kind : Expr → Kind
  | .either _ | .both _ => .boolean
  | .compare first rest => if rest.isEmpty then first.kind else .boolean
  | .arithmetic _ _ | .negate _ => .number
  | .union _ => .nodes
  | .path _ steps => Step.kindOf steps
  | .filter _ _ steps => Step.kindOf steps
  | .literal _ => .text
  | .number _ => .number
  | .call f _ => f.kind

variable {d : Document} {c : Context} {v : Value}

theorem Value.kind_eq_nodes_iff : v.kind = .nodes ↔ ∃ ids, v = .nodes ids := by
  cases v with
  | nodes ids => exact ⟨fun _ => ⟨ids, rfl⟩, fun _ => rfl⟩
  | attributes values => simp [kind]
  | text value => simp [kind]
  | number value => simp [kind]
  | boolean value => simp [kind]

theorem kind_of_followSteps {steps : List Step} {ns : List Nat}
    (h : followSteps d (Step.meanings d steps) ns = .ok v) : v.kind = Step.kindOf steps := by
  induction steps generalizing ns with
  | nil =>
    obtain rfl := Except.ok.inj h
    rfl
  | cons s rest ih =>
    obtain ⟨axis, test, predicates⟩ := s
    by_cases haxis : axis = .attribute
    · have hvalues : followSteps d (Step.meanings d (.step axis test predicates :: rest)) ns =
          .ok (.attributes (attributeValues d test ns)) := if_pos haxis
      obtain rfl := Except.ok.inj (hvalues.symm.trans h)
      simp [Step.kindOf, Step.axis, haxis, Value.kind]
    · simp only [Step.meanings, Step.meaning, followSteps, if_neg haxis] at h
      obtain ⟨found, -, h⟩ := bind_eq_ok_iff.mp h
      rw [ih h]
      simp [Step.kindOf, Step.axis, haxis]

/-! ### Calls -/

/-- Whether a function takes an argument of a kind in the first place, or none. -/
def Function.takes (first : Option Kind) : Function → Bool
  | .count => first == some .nodes || first == some .attributes
  | .name | .localName => first == none || first == some .nodes
  | _ => Bool.true

/-- A call fails iff its function does not take the first argument. -/
theorem fails_apply_iff {f : Function} {values : List Value} :
    Fails (f.apply d c values) ↔ f.takes (values.head?.map Value.kind) = false := by
  cases f with
  | count | name | localName =>
    cases values with
    | nil => simp [Function.apply, Function.takes]
    | cons first rest =>
      cases first with
      | nodes ids => simp [Function.apply, Function.takes, Value.kind]
      | attributes found => simp [Function.apply, Function.takes, Value.kind]
      | text s => simp [Function.apply, Function.takes, Value.kind]
      | number x => simp [Function.apply, Function.takes, Value.kind]
      | boolean b => simp [Function.apply, Function.takes, Value.kind]
  | _ => simp [Function.apply, Function.takes]

theorem kind_of_apply {f : Function} {values : List Value}
    (h : f.apply d c values = .ok v) : v.kind = f.kind := by
  cases f with
  | count | name | localName =>
    rw [Function.apply] at h
    split at h <;> cases h <;> rfl
  | _ =>
    rw [Function.apply] at h
    cases h
    rfl

/-! ### Values of expressions -/

/-- **All values of an expression are of its kind.** -/
theorem Expr.kind_of_meaning : ∀ (e : Expr) {v : Value}, e.meaning d c = .ok v → v.kind = e.kind
  | .either operands, _, h => by
    obtain ⟨b, rfl⟩ := boolean_of_either h
    rfl
  | .both operands, _, h => by
    obtain ⟨b, rfl⟩ := boolean_of_both h
    rfl
  | .compare first [], _, h => by
    obtain ⟨left, hleft, h⟩ := bind_eq_ok_iff.mp h
    obtain rfl := Except.ok.inj h
    exact Expr.kind_of_meaning first hleft
  | .compare first ((op, operand) :: rest), _, h => by
    obtain ⟨left, -, h⟩ := bind_eq_ok_iff.mp h
    obtain ⟨right, -, h⟩ := bind_eq_ok_iff.mp h
    rcases eq_or_boolean_of_comparisons h with rfl | ⟨b, rfl⟩
    · rfl
    · rfl
  | .arithmetic first rest, _, h => by
    obtain ⟨left, -, h⟩ := bind_eq_ok_iff.mp h
    obtain ⟨x, rfl⟩ := number_of_calculations h
    rfl
  | .negate operand, _, h => by
    obtain ⟨v, -, h⟩ := bind_eq_ok_iff.mp h
    cases h
    rfl
  | .union parts, _, h => by
    obtain ⟨ids, -, h⟩ := bind_eq_ok_iff.mp h
    cases h
    rfl
  | .path absolute steps, _, h => kind_of_followSteps h
  | .filter primary predicates steps, _, h => by
    obtain ⟨v, -, h⟩ := bind_eq_ok_iff.mp h
    cases v with
    | nodes ids =>
      obtain ⟨kept, -, h⟩ := bind_eq_ok_iff.mp h
      exact kind_of_followSteps h
    | _ => cases h
  | .literal text, _, h => by
    cases h
    rfl
  | .number value, _, h => by
    cases h
    rfl
  | .call f args, _, h => by
    obtain ⟨values, -, h⟩ := bind_eq_ok_iff.mp h
    exact kind_of_apply h

/-! ### Misfits -/

/-- Whether an expression has a part of a kind that it cannot take. -/
def Expr.isMisfit : Expr → Bool
  | .union parts => parts.any fun e => e.kind != .nodes
  | .filter primary _ _ => primary.kind != .nodes
  | .call f args => !f.takes (args.head?.map Expr.kind)
  | _ => false

/-- The parts of an expression: operands, arguments and predicates. -/
def Expr.parts : Expr → List Expr
  | .either operands => operands
  | .both operands => operands
  | .compare first rest => first :: rest.map Prod.snd
  | .arithmetic first rest => first :: rest.map Prod.snd
  | .negate operand => [operand]
  | .union parts => parts
  | .path _ steps => steps.flatMap Step.predicates
  | .filter primary predicates steps => primary :: (predicates ++ steps.flatMap Step.predicates)
  | .literal _ => []
  | .number _ => []
  | .call _ args => args

mutual

/-- Whether there is no misfit at any depth of an expression. -/
def Expr.fits : Expr → Bool
  | .either operands => Expr.allFit operands
  | .both operands => Expr.allFit operands
  | .compare first rest => first.fits && Expr.comparandsFit rest
  | .arithmetic first rest => first.fits && Expr.termsFit rest
  | .negate operand => operand.fits
  | .union parts => (parts.all fun e => e.kind == .nodes) && Expr.allFit parts
  | .path _ steps => Step.allFit steps
  | .filter primary predicates steps =>
    primary.kind == .nodes && primary.fits && Expr.allFit predicates && Step.allFit steps
  | .literal _ => true
  | .number _ => true
  | .call f args => f.takes (args.head?.map Expr.kind) && Expr.allFit args

def Expr.allFit : List Expr → Bool
  | [] => true
  | e :: rest => e.fits && Expr.allFit rest

def Expr.comparandsFit : List (Comparison × Expr) → Bool
  | [] => true
  | (_, e) :: rest => e.fits && Expr.comparandsFit rest

def Expr.termsFit : List (Arithmetic × Expr) → Bool
  | [] => true
  | (_, e) :: rest => e.fits && Expr.termsFit rest

def Step.fits : Step → Bool
  | .step _ _ predicates => Expr.allFit predicates

def Step.allFit : List Step → Bool
  | [] => true
  | s :: rest => s.fits && Step.allFit rest

end

theorem Expr.allFit_iff {es : List Expr} : allFit es = true ↔ ∀ e ∈ es, e.fits = true := by
  induction es with
  | nil => simp [allFit]
  | cons e rest ih => simp [allFit, ih]

theorem Expr.comparandsFit_iff {rest : List (Comparison × Expr)} :
    comparandsFit rest = true ↔ ∀ e ∈ rest.map Prod.snd, e.fits = true := by
  induction rest with
  | nil => simp [comparandsFit]
  | cons operand rest ih =>
    rw [comparandsFit, Bool.and_eq_true, ih, List.map_cons, List.forall_mem_cons]

theorem Expr.termsFit_iff {rest : List (Arithmetic × Expr)} :
    termsFit rest = true ↔ ∀ e ∈ rest.map Prod.snd, e.fits = true := by
  induction rest with
  | nil => simp [termsFit]
  | cons operand rest ih =>
    rw [termsFit, Bool.and_eq_true, ih, List.map_cons, List.forall_mem_cons]

theorem Step.allFit_iff {steps : List Step} :
    allFit steps = true ↔ ∀ e ∈ steps.flatMap Step.predicates, e.fits = true := by
  induction steps with
  | nil => simp [allFit]
  | cons s rest ih =>
    obtain ⟨axis, test, predicates⟩ := s
    rw [allFit, fits, Bool.and_eq_true, ih, Expr.allFit_iff, List.flatMap_cons,
      List.forall_mem_append]
    rfl

/-- **An expression fits iff it is no misfit and its parts fit.** -/
theorem Expr.fits_iff {e : Expr} :
    e.fits = true ↔ e.isMisfit = false ∧ ∀ part ∈ e.parts, part.fits = true := by
  cases e with
  | either operands => simp [fits, allFit_iff, isMisfit, parts]
  | both operands => simp [fits, allFit_iff, isMisfit, parts]
  | compare first rest =>
    rw [fits, Bool.and_eq_true, comparandsFit_iff, parts, List.forall_mem_cons]
    simp [isMisfit]
  | arithmetic first rest =>
    rw [fits, Bool.and_eq_true, termsFit_iff, parts, List.forall_mem_cons]
    simp [isMisfit]
  | negate operand => simp [fits, isMisfit, parts]
  | union parts => simp [fits, allFit_iff, isMisfit, Expr.parts]
  | path absolute steps =>
    rw [fits, Step.allFit_iff, parts]
    simp [isMisfit]
  | filter primary predicates steps =>
    simp only [fits, Bool.and_eq_true, allFit_iff, Step.allFit_iff, parts, List.forall_mem_cons,
      List.forall_mem_append, isMisfit, and_assoc]
    simp
  | literal text => simp [fits, isMisfit, parts]
  | number value => simp [fits, isMisfit, parts]
  | call f args => simp [fits, allFit_iff, isMisfit, parts]

end ScreenInspector.Expression
