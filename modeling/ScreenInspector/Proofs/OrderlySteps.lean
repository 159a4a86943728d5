/-
  ScreenInspector/Proofs/OrderlySteps.lean
  ========================================
  **Parsed expressions meet what their evaluation takes for granted.**

  The evaluation checks little.  An attribute step ends the way: what stands behind it is not looked
  at, nor are its predicates, and on the axis of attributes there are no nodes.  A missing argument
  is the text of the context node, and operands may be none at all.  In an expression that a text
  writes none of this comes up, at any depth: every node that the parser makes is orderly, and so is
  every part of it (`Layers.isOrderlyThroughout`).

  For steps the consequence can be said without looking at the evaluation.  Whatever it did with an
  attribute step that is not the last, or that has conditions, and whatever nodes there were on the
  axis of attributes, the value of every list of steps in a parsed expression would be the same
  (`followStepsWith_eq`).
-/
import ScreenInspector.Proofs.ExpressionLayers
import ScreenInspector.Proofs.NeededParts

namespace ScreenInspector.Expression

open ScreenInspector.Markup (Document)

/-! ### Parts at every depth -/

/-- An expression is a part of another at some depth, or the other itself. -/
def Expr.Contains : Expr → Expr → Prop :=
  Relation.ReflTransGen fun e part => part ∈ e.parts

def Expr.IsOrderlyThroughout (e : Expr) : Prop :=
  ∀ part, e.Contains part → part.IsOrderly

variable {e : Expr} {N : Expr → Prop}

theorem Expr.isOrderlyThroughout_iff : e.IsOrderlyThroughout ↔
    e.IsOrderly ∧ ∀ part ∈ e.parts, part.IsOrderlyThroughout :=
  forall_reachable_iff

theorem Layers.isOrderlyThroughout {layers : Nat} (h : ∀ e, N e → e.IsOrderlyThroughout)
    (he : Layers N layers e) : e.IsOrderlyThroughout := by
  induction layers generalizing e with
  | zero => exact h e he
  | succ layers ih =>
    rcases he with he | ⟨horderly, hparts⟩
    · exact ih he
    · exact Expr.isOrderlyThroughout_iff.mpr ⟨horderly, fun part hpart => ih (hparts part hpart)⟩

theorem isOrderlyThroughout_of_nested (levels : Nat) (he : Shape.Nested levels e) :
    e.IsOrderlyThroughout := by
  induction levels generalizing e with
  | zero => exact he.elim
  | succ levels ih => exact (layers_of_either he).isOrderlyThroughout fun _ => ih

/-! ### Following orderly steps -/

def Expr.steps : Expr → List Step
  | .path _ steps => steps
  | .filter _ _ steps => steps
  | _ => []

/-- Answers where an evaluation of orderly steps never asks: the nodes on the axis of attributes, and
what an attribute step leads to that has conditions or steps behind it. -/
structure Detour where
  attributeNodes : Nat → List Nat
  attributeStep : StepMeaning → List StepMeaning → List Nat → Except Fault Value

variable (detour : Detour) (d : Document)

def Axis.nodesWith (n : Nat) : Axis → List Nat
  | .attribute => detour.attributeNodes n
  | axis => axis.nodes d n

def StepMeaning.selectAllWith (s : StepMeaning) : List Nat → Except Fault (List Nat)
  | [] => .ok []
  | n :: rest => do
    let found ← filterBy s.predicates
      ((s.axis.nodesWith detour d n).filter fun m => s.test.admits d m)
    let more ← s.selectAllWith rest
    pure (found ++ more)

/-- What steps lead to if detours are taken. -/
def followStepsWith : List StepMeaning → List Nat → Except Fault Value
  | [], ns => .ok (.nodes ns)
  | s :: rest, ns =>
    if s.axis = .attribute then
      if rest.isEmpty && s.predicates.isEmpty && s.test != .text then
        .ok (.attributes (attributeValues d s.test ns))
      else detour.attributeStep s rest ns
    else do
      let found ← s.selectAllWith detour d ns
      followStepsWith rest (inDocumentOrder found)

theorem selectAllWith_eq {s : StepMeaning} (h : s.axis ≠ .attribute) (ns : List Nat) :
    s.selectAllWith detour d ns = s.selectAll d ns := by
  have hnodes : ∀ n, s.axis.nodesWith detour d n = s.axis.nodes d n := by
    intro n
    unfold Axis.nodesWith
    split
    next haxis => exact absurd haxis h
    next => rfl
  induction ns with
  | nil => rfl
  | cons n rest ih =>
    rw [StepMeaning.selectAllWith, StepMeaning.selectAll, hnodes, ih]
    rfl

/-- **Orderly steps take no detour**: no step is skipped, and no nodes are looked for on the axis of
attributes. -/
theorem followStepsWith_eq {steps : List Step} (h : Step.AreOrderly steps) (ns : List Nat) :
    followStepsWith detour d (Step.meanings d steps) ns =
      followSteps d (Step.meanings d steps) ns := by
  induction steps generalizing ns with
  | nil => rfl
  | cons s rest ih =>
    have hrest : Step.AreOrderly rest :=
      fun before s' after heq => h (s :: before) s' after (congrArg (s :: ·) heq)
    have hs := h [] s rest rfl
    obtain ⟨axis, test, predicates⟩ := s
    rw [Step.meanings, Step.meaning, followStepsWith, followSteps]
    by_cases haxis : axis = .attribute
    · obtain ⟨rfl, hpredicates, htest⟩ := hs haxis
      obtain rfl : predicates = [] := hpredicates
      have hplain : (test != .text) = true := bne_iff_ne.mpr htest
      simp [haxis, hplain, Step.meanings, Expr.meanings]
    · -- Steps on other axes are followed as they are, and the rest by induction.
      rw [if_neg haxis, if_neg haxis, selectAllWith_eq detour d haxis]
      simp only [ih hrest]

/-- **Parsed expressions are orderly at every depth**: an attribute step is the last of its steps and
has no conditions, calls have as many arguments as their functions take, and no operator is without
operands.  So wherever steps are followed, from whatever nodes of whatever document, no step is
skipped and the axis of attributes is not asked for nodes. -/
theorem parsed_isOrderly {text : String} {e : Expr} (hparse : Expr.parse text = .ok e)
    {part : Expr} (hpart : e.Contains part) :
    part.IsOrderly ∧ ∀ (detour : Detour) (d : Document) (ns : List Nat),
      followStepsWith detour d (Step.meanings d part.steps) ns =
        followSteps d (Step.meanings d part.steps) ns := by
  have horderly : part.IsOrderly :=
    isOrderlyThroughout_of_nested depthLimit (nested_of_parse hparse) part hpart
  refine ⟨horderly, fun detour d ns => followStepsWith_eq detour d ?_ ns⟩
  cases part with
  | path absolute steps => exact horderly
  | filter primary predicates steps => exact horderly.1
  | _ =>
    intro before s after heq
    cases before <;> cases heq

/-- Labels of buttons whose identifiers begin in one way: attributes at the end of the way and in a
call in a predicate on it. -/
def labelsOfButtons : Expr :=
  .path true [Step.everywhere,
    .step .child (.name "Button")
      [.call .startsWith [.path false [.step .attribute (.name "id") []], .literal "a"]],
    .step .attribute (.name "label") []]

/-- The attributes in it are the last steps of their ways. -/
theorem parsed_isOrderly_labels :
    Expr.parse "//Button[starts-with(@id,'a')]/@label" = .ok labelsOfButtons ∧
    labelsOfButtons.Contains (.path false [.step .attribute (.name "id") []]) ∧
    labelsOfButtons.IsOrderly ∧
    (Expr.path false [.step .attribute (.name "id") []]).IsOrderly := by
  have hscan : Token.scan "//Button[starts-with(@id,'a')]/@label" = .ok
      [.doubleSlash, .name "Button", .openBracket, .name "starts-with", .openParen, .at, .name "id",
        .comma, .literal "a", .closeParen, .closeBracket, .slash, .at, .name "label"] := by
    rfl
  have hparse : Expr.parse "//Button[starts-with(@id,'a')]/@label" = .ok labelsOfButtons := by
    rw [Expr.parse, hscan, ok_bind]
    rfl
  have hcontains :
      labelsOfButtons.Contains (.path false [.step .attribute (.name "id") []]) :=
    .head List.mem_cons_self (.head List.mem_cons_self .refl)
  refine ⟨hparse, hcontains, ?_, ?_⟩
  · exact (parsed_isOrderly hparse .refl).1
  · exact (parsed_isOrderly hparse hcontains).1

end ScreenInspector.Expression
