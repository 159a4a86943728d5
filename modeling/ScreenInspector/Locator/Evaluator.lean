/-
  ScreenInspector/Locator/Evaluator.lean
  ======================================
  **Evaluators**: what answers expressions with the references of the elements they select.

  An evaluator may answer the same question differently later.  All that an answer can depend on
  are the questions asked before, so an evaluator is a function of these and of the expression;
  whoever asks keeps the list of questions.

  The evaluator of a tree reads its source text and never changes its mind.
-/
import ScreenInspector.Expression.Evaluation
import ScreenInspector.Expression.Grammar
import ScreenInspector.InspectionError
import ScreenInspector.Screen.Tree

namespace ScreenInspector

/-- The questions asked so far, the last first. -/
abbrev Questions := List String

/-- The references of the elements that an expression selects. -/
abbrev Answer := Except InspectionError (List String)

/-- Answers an expression after the questions asked before it. -/
structure Evaluator where
  answer : Questions → String → Answer

namespace Evaluator

/-- The references of the elements in a list of nodes; elements without one are left out. -/
def references (d : Markup.Document) (nodes : List Nat) : List String :=
  (nodes.filter d.isElement).filterMap fun n => d.attribute? n "ref"

/-- The elements that an expression selects in a document.  What the expression says is judged
before the document is looked at. -/
def answerIn (document : Except Markup.Fault Markup.Document) (expression : String) : Answer :=
  match Expression.Expr.parse expression with
  | .error fault => .error (.invalidExpression expression fault)
  | .ok e =>
    match document with
    | .error fault => .error (.malformed (.sourceText fault))
    | .ok d =>
      match e.evaluate d with
      | .error fault => .error (.invalidExpression expression fault)
      | .ok (.nodes nodes) => .ok (references d nodes)
      | .ok _ => .error (.invalidExpression expression .selectsNoElements)

/-- The evaluator of a source text. -/
def ofSource (source : String) : Evaluator :=
  let document := Markup.Document.read source
  ⟨fun _ expression => answerIn document expression⟩

end Evaluator

/-- The evaluator of a tree. -/
def Tree.evaluator (t : Tree) : Evaluator :=
  Evaluator.ofSource t.source

end ScreenInspector
