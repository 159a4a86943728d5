/-
  ScreenInspector/Proofs/LocatorValidity.lean
  ===========================================
  **No data of an element breaks its locators.**

  A kind becomes a tag and a value a literal, and nothing else of an element is in an expression.  So
  a base expression is always the path to the tag, with one comparison if an attribute tells the
  element apart (`exists_conditions`), and with a position it is that path in parentheses.  These
  expressions fit: they have lists of nodes over every document.  An evaluator of a source text can
  only refuse them for the text, and what it does not find invalid, no search and no confirmation
  does (`error_of_synthesize`, `error_of_confirm`).
-/
import ScreenInspector.Proofs.ExpressionVerdicts
import ScreenInspector.Proofs.LocatorSearch
import ScreenInspector.Proofs.LocatorSyntax

namespace ScreenInspector

open Expression (Expr Step)

/-! ### Attributes that tell elements apart -/

namespace Locator

/-- An attribute has a value that says something and does not hold quotes of both kinds. -/
structure Tells (e : Element) (name value : String) : Prop where
  attribute_eq : e.attribute? name = some value
  ne_empty : value ≠ ""
  ne_null : value ≠ "null"
  isWritable : ¬ ('\x27' ∈ value.toList ∧ '\x22' ∈ value.toList)

variable {e : Element} {name value : String}

theorem tells_iff :
    Tells e name value ↔ e.meaningful? name = some value ∧ isWritable value = true := by
  have hquotes : isWritable value = true ↔
      ¬ ('\x27' ∈ value.toList ∧ '\x22' ∈ value.toList) := by
    simp [isWritable, imp_iff_not_or]
  rw [hquotes, Element.meaningful?, Option.filter_eq_some_iff, Bool.and_eq_true, bne_iff_ne,
    bne_iff_ne]
  constructor
  · intro h
    exact ⟨⟨h.attribute_eq, h.ne_empty, h.ne_null⟩, h.isWritable⟩
  · rintro ⟨⟨hattribute, hempty, hnull⟩, hwritable⟩
    exact ⟨hattribute, hempty, hnull, hwritable⟩

theorem telling?_iff_tells {found : String × String} :
    telling? e name = some found ↔ found.1 = name ∧ Tells e name found.2 := by
  rw [telling?_eq_some_iff, tells_iff]

theorem telling?_eq_none_iff : telling? e name = none ↔ ∀ value, ¬ Tells e name value := by
  rw [Option.eq_none_iff_forall_ne_some]
  constructor
  · intro hnone value htells
    exact hnone (name, value) (telling?_iff_tells.mpr ⟨rfl, htells⟩)
  · intro hnone found hfound
    exact hnone found.2 (telling?_iff_tells.mp hfound).2

/-- **The identity is the first attribute that tells the element apart**, if one does. -/
theorem identity?_cases (e : Element) :
    identity? e = none ∧ (∀ name ∈ identityAttributes, ∀ value, ¬ Tells e name value) ∨
    ∃ before name later value, identityAttributes = before ++ name :: later ∧
      (∀ earlier ∈ before, ∀ value, ¬ Tells e earlier value) ∧ Tells e name value ∧
      identity? e = some (name, value) := by
  cases hidentity : identity? e with
  | none =>
    refine Or.inl ⟨rfl, fun name hname => ?_⟩
    exact telling?_eq_none_iff.mp (List.findSome?_eq_none_iff.mp hidentity name hname)
  | some found =>
    obtain ⟨before, name, later, hsplit, hfound, hbefore⟩ :=
      List.findSome?_eq_some_iff.mp hidentity
    obtain ⟨hname, htells⟩ := telling?_iff_tells.mp hfound
    refine Or.inr ⟨before, name, later, found.2, hsplit, ?_, htells, by rw [← hname]⟩
    intro earlier hearlier
    exact telling?_eq_none_iff.mp (hbefore earlier hearlier)

/-- **What a base expression says**: the path to the tag, with a condition on the first attribute
that tells the element apart. -/
theorem exists_conditions (e : Element) : ∃ conditions,
    baseExpr e = .path true
      [.step .descendantOrSelf .anyNode [], .step .child (.name e.tag) conditions] ∧
    (conditions = [] ∧ (∀ name ∈ identityAttributes, ∀ value, ¬ Tells e name value) ∨
      ∃ before name later value, identityAttributes = before ++ name :: later ∧
        (∀ earlier ∈ before, ∀ value, ¬ Tells e earlier value) ∧ Tells e name value ∧
        conditions = [.compare (.path false [.step .attribute (.name name) []])
          [(.equal, .literal value)]]) := by
  refine ⟨_, rfl, ?_⟩
  rcases identity?_cases e with
    ⟨hnone, hall⟩ | ⟨before, name, later, value, hsplit, hbefore, htells, hsome⟩
  · rw [hnone]
    exact Or.inl ⟨rfl, hall⟩
  · rw [hsome]
    exact Or.inr ⟨before, name, later, value, hsplit, hbefore, htells, rfl⟩

/-! ### Expressions that fit -/

theorem fits_baseExpr (e : Element) : (baseExpr e).fits = true := by
  rw [baseExpr]
  cases identity? e with
  | none => rfl
  | some found => rfl

theorem fits_position (e : Element) (x : Float) :
    (Expr.filter (baseExpr e) [.number x] []).fits = true := by
  have hkind : (baseExpr e).kind = .nodes := rfl
  simp [Expr.fits, hkind, fits_baseExpr, Expr.allFit, Step.allFit]

end Locator

/-- An expression that the grammar accepts and that fits is not found invalid, over any source
text. -/
theorem Evaluator.answer_ne_invalid {text : String} {e : Expr} (hparse : Expr.parse text = .ok e)
    (hkind : e.kind = .nodes) (hfits : e.fits = true) (source : String) (asked : Questions)
    (other : String) (fault : Expression.Fault) :
    (ofSource source).answer asked text ≠ .error (.invalidExpression other fault) := by
  cases hread : Markup.Document.read source with
  | error unread => simp [ofSource, answerIn, hparse, hread]
  | ok d =>
    rcases verdict_of_parse hread hparse with ⟨-, hother | hmisfit⟩ | ⟨hanswers, -⟩
    · exact absurd hkind hother
    · exact absurd hmisfit (Expr.not_meetsMisfit_of_fits hfits d)
    · obtain ⟨found, hfound⟩ := hanswers asked
      simp [hfound]

namespace Locator

theorem answer_question_ne_invalid (source : String) (asked : Questions) (e : Element) (i : Nat)
    (other : String) (fault : Expression.Fault) :
    (Evaluator.ofSource source).answer asked (question (baseExpression e) i) ≠
      .error (.invalidExpression other fault) := by
  cases i with
  | zero =>
    exact Evaluator.answer_ne_invalid (parse_baseExpression e) rfl (fits_baseExpr e) source asked
      other fault
  | succ i =>
    exact Evaluator.answer_ne_invalid (parse_indexed_scaled e (i + 1)) rfl (fits_position e _)
      source asked other fault

theorem synthesize_ne_invalid (source : String) (asked : Questions) (e : Element) (other : String)
    (fault : Expression.Fault) : (synthesize (Evaluator.ofSource source) asked e).1 ≠
      .error (.invalidExpression other fault) := by
  intro h
  rcases error_of_synthesize h with ⟨i, hanswer⟩ | hunmatched | ⟨count, hambiguous⟩
  · exact answer_question_ne_invalid source _ e i other fault hanswer
  · cases hunmatched
  · cases hambiguous

theorem confirm_ne_invalid (source : String) (asked : Questions) (e : Element) (i : Nat)
    (other : String) (fault : Expression.Fault) :
    (confirm (Evaluator.ofSource source) asked (question (baseExpression e) i)).1 ≠
      .error (.invalidExpression other fault) := by
  intro h
  rcases error_of_confirm h with hanswer | hunmatched | ⟨count, hambiguous⟩
  · exact answer_question_ne_invalid source asked e i other fault hanswer
  · cases hunmatched
  · cases hambiguous

/-! ### The main result -/

/-- **No data of an element breaks its locators**, whatever its kind and its attributes hold.  The
base expression is accepted as the path to the tag, with no predicate, or with the only predicate
that the first attribute that tells the element apart equals its value.  With a position it is
accepted as this path in parentheses with the number as its predicate.  So with the evaluator of a
source text neither a search nor a confirmation finds an expression invalid. -/
theorem locators_valid (e : Element) :
    (∃ conditions,
      Expr.parse (baseExpression e) = .ok (.path true
        [.step .descendantOrSelf .anyNode [], .step .child (.name e.tag) conditions]) ∧
      (conditions = [] ∧ (∀ name ∈ ["id", "name", "value"], ∀ value, ¬ Tells e name value) ∨
        ∃ before name later value, ["id", "name", "value"] = before ++ name :: later ∧
          (∀ earlier ∈ before, ∀ value, ¬ Tells e earlier value) ∧ Tells e name value ∧
          conditions = [.compare (.path false [.step .attribute (.name name) []])
            [(.equal, .literal value)]]) ∧
      ∀ i, Expr.parse (indexed (baseExpression e) i) = .ok (.filter (.path true
          [.step .descendantOrSelf .anyNode [], .step .child (.name e.tag) conditions])
        [.number (Number.scaled i 0)] [])) ∧
    ∀ source asked other fault,
      (synthesize (Evaluator.ofSource source) asked e).1 ≠
        .error (.invalidExpression other fault) ∧
      (confirm (Evaluator.ofSource source) asked (baseExpression e)).1 ≠
        .error (.invalidExpression other fault) ∧
      ∀ i, 0 < i → (confirm (Evaluator.ofSource source) asked (indexed (baseExpression e) i)).1 ≠
        .error (.invalidExpression other fault) := by
  obtain ⟨conditions, hbase, hconditions⟩ := exists_conditions e
  refine ⟨⟨conditions, ?_, hconditions, ?_⟩, ?_⟩
  · rw [parse_baseExpression, hbase]
  · intro i
    rw [parse_indexed_scaled, hbase]
  · intro source asked other fault
    refine ⟨synthesize_ne_invalid source asked e other fault,
      confirm_ne_invalid source asked e 0 other fault, ?_⟩
    intro i hpos
    rw [← question_of_pos (baseExpression e) hpos]
    exact confirm_ne_invalid source asked e i other fault

/-- A tag that is an operator elsewhere, and a value that would end an expression. -/
example : baseExpression ⟨"r", "a.or", none, [("id", "null"), ("name", "x' or 1]")], none, none⟩ =
    "//or[@name=\"x' or 1]\"]" := by decide

end Locator

end ScreenInspector
