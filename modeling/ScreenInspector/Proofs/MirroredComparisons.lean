/-
  ScreenInspector/Proofs/MirroredComparisons.lean
  ===============================================
  **Comparing is the same from both sides.**

  What `<` says of two values, `>` says of them exchanged, and so each comparison has a `mirrored`
  one.  Two atoms are equal as truth values, as numbers or as texts, and which of these it is does
  not depend on the side (`equalAtoms_comm`); so comparisons of atoms can be mirrored
  (`compareAtoms_mirrored`).  The members of a set are compared one by one with what is on the other
  side.  If that is a set too, it does not matter which of the two is gone through first
  (`any_any_comm`), so all comparisons can be mirrored (`compare_mirrored`).

  A comparison with a set holds if it holds for one of the members.  So `=` and `!=` may both hold
  of a set, and are the negation of one another only where neither side is one
  (`compare_notEqual`); and of a set without members none of the six holds, unless the other side is
  a truth value (`compare_emptySet`).
-/
import ScreenInspector.Expression.Value
import ScreenInspector.Proofs.NumberOrder

namespace ScreenInspector.Expression

open ScreenInspector.Markup (Document)

/-- The comparison that says the same of exchanged operands. -/
def Comparison.mirrored : Comparison → Comparison
  | .equal => .equal
  | .notEqual => .notEqual
  | .less => .greater
  | .lessEqual => .greaterEqual
  | .greater => .less
  | .greaterEqual => .lessEqual

/-- Which of two lists is gone through first does not matter. -/
theorem any_any_comm {α β : Type} (p : α → β → Bool) (as : List α) (bs : List β) :
    (as.any fun a => bs.any fun b => p a b) = bs.any fun b => as.any fun a => p a b := by
  rw [Bool.eq_iff_iff]
  simp only [List.any_eq_true]
  constructor
  · rintro ⟨a, ha, b, hb, hp⟩
    exact ⟨b, hb, a, ha, hp⟩
  · rintro ⟨b, hb, a, ha, hp⟩
    exact ⟨a, ha, b, hb, hp⟩

namespace Value

/-- Lists of nodes and of attribute values. -/
def isSet : Value → Bool
  | .nodes _ | .attributes _ => true
  | _ => false

/-- Lists without members. -/
def isEmptySet : Value → Bool
  | .nodes ids => ids.isEmpty
  | .attributes values => values.isEmpty
  | _ => false

variable {d : Document} {l r : Value}

theorem members?_eq_none_iff : l.members? d = none ↔ l.isSet = false := by
  cases l <;> simp [members?, isSet]

theorem members?_eq_nil_iff : l.members? d = some [] ↔ l.isEmptySet = true := by
  cases l <;> simp [members?, isEmptySet]

/-! ### Atoms -/

theorem equalAtoms_comm (d : Document) (l r : Value) :
    equalAtoms d l r = equalAtoms d r l := by
  have hnumbers := Number.beq_comm (l.toNumber d) (r.toNumber d)
  simp only [equalAtoms, Bool.or_comm r.isBoolean, Bool.or_comm r.isNumber, hnumbers,
    BEq.comm (a := r.toBool), BEq.comm (a := r.toText d)]

/-- **Atoms compare the same from both sides.** -/
theorem compareAtoms_mirrored (d : Document) (op : Comparison) (l r : Value) :
    compareAtoms d op l r = compareAtoms d op.mirrored r l := by
  cases op with
  | equal => exact equalAtoms_comm d l r
  | notEqual => exact congrArg not (equalAtoms_comm d l r)
  | less => rfl
  | lessEqual => rfl
  | greater => rfl
  | greaterEqual => rfl

/-! ### Sets -/

/-- **Values compare the same from both sides.** -/
theorem compare_mirrored (d : Document) (op : Comparison) (l r : Value) :
    compare d op l r = compare d op.mirrored r l := by
  simp only [compare]
  cases l.members? d with
  | none =>
    cases r.members? d with
    | none => exact compareAtoms_mirrored d op l r
    | some rs => simp only [compareAtoms_mirrored d op]
  | some ls =>
    cases r.members? d with
    | none => simp only [compareAtoms_mirrored d op]
    | some rs =>
      simp only [compareAtoms_mirrored d op]
      exact any_any_comm _ ls rs

theorem compare_notEqual (hl : l.isSet = false) (hr : r.isSet = false) :
    compare d .notEqual l r = !compare d .equal l r := by
  rw [← members?_eq_none_iff (d := d)] at hl hr
  simp only [compare, hl, hr]
  rfl

/-- Of a set with several members both may hold. -/
example (d : Document) : compare d .equal (.attributes ["on", "off"]) (.text "on") = true ∧
    compare d .notEqual (.attributes ["on", "off"]) (.text "on") = true :=
  ⟨rfl, rfl⟩

/-- A set without members is in no relation to what is no truth value. -/
theorem compare_emptySet (hl : l.isEmptySet = true) (hr : r.isBoolean = false)
    (op : Comparison) : compare d op l r = false := by
  rw [← members?_eq_nil_iff (d := d)] at hl
  cases hmembers : r.members? d with
  | none => simp [compare, hl, hmembers, hr]
  | some rs => simp [compare, hl, hmembers]

/-! ### The main result -/

/-- **Comparing is coherent**, whatever the values are.  Each comparison says the same as the
mirrored one of the exchanged operands.  Where neither side is a set, `!=` is the negation of `=`.
A set without members is in none of the six relations to a value that is no truth value, be it on
the left or on the right. -/
theorem comparisons_coherent (d : Document) (l r : Value) :
    (∀ op, compare d op l r = compare d op.mirrored r l) ∧
    (l.isSet = false → r.isSet = false → compare d .notEqual l r = !compare d .equal l r) ∧
    (l.isEmptySet = true → r.isBoolean = false → ∀ op, compare d op l r = false) ∧
    (r.isEmptySet = true → l.isBoolean = false → ∀ op, compare d op l r = false) := by
  refine ⟨?_, compare_notEqual, compare_emptySet, ?_⟩
  · intro op
    exact compare_mirrored d op l r
  intro hr hl op
  rw [compare_mirrored]
  exact compare_emptySet hr hl op.mirrored

/-- Two atoms that are both no number, which makes them differ, and sets without members on either
side of them. -/
theorem comparisons_coherent_nan :
    ((text "ten").isSet = false ∧ (number Number.nan).isSet = false ∧
      compare (Document.ofNodes []) .notEqual (text "ten") (number Number.nan) =
        !compare (Document.ofNodes []) .equal (text "ten") (number Number.nan)) ∧
    ((nodes []).isEmptySet = true ∧ (number Number.nan).isBoolean = false ∧
      ∀ op, compare (Document.ofNodes []) op (nodes []) (number Number.nan) = false) ∧
    ((attributes []).isEmptySet = true ∧ (text "ten").isBoolean = false ∧
      ∀ op, compare (Document.ofNodes []) op (text "ten") (attributes []) = false) := by
  obtain ⟨-, hnegation, -, -⟩ :=
    comparisons_coherent (Document.ofNodes []) (text "ten") (number Number.nan)
  obtain ⟨-, -, hleft, -⟩ :=
    comparisons_coherent (Document.ofNodes []) (nodes []) (number Number.nan)
  obtain ⟨-, -, -, hright⟩ :=
    comparisons_coherent (Document.ofNodes []) (text "ten") (attributes [])
  exact ⟨⟨rfl, rfl, hnegation rfl rfl⟩, ⟨rfl, rfl, hleft rfl rfl⟩, ⟨rfl, rfl, hright rfl rfl⟩⟩

end Value

end ScreenInspector.Expression
