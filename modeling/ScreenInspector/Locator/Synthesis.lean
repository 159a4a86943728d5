/-
  ScreenInspector/Locator/Synthesis.lean
  ======================================
  **Finding an expression that selects one element and no other.**

  The base expression of a node asks for its tag and for the first of its identity attributes that
  can be written as a literal.  If it selects several elements, it is put in parentheses and
  followed by the positions from 1 on, until one of these expressions selects exactly the node.

  Every function returns the questions asked so far beside its result, also when it fails.
-/
import ScreenInspector.Locator.Evaluator

namespace ScreenInspector

/-- An expression that selects exactly one element. -/
structure Locator where
  expression : String
  /-- How many elements the base expression selects. -/
  baseMatches : Nat
  /-- Whether a position had to be added. -/
  isRefined : Bool
deriving DecidableEq, Repr, Inhabited

namespace Locator

/-- The attributes that tell elements apart, the most telling first. -/
def identityAttributes : List String :=
  ["id", "name", "value"]

/-- A text as a literal of an expression; none if it has quotes of both kinds. -/
def literal? (value : List Char) : Option (List Char) :=
  if !value.contains '\x27' then some ('\x27' :: (value ++ ['\x27']))
  else if !value.contains '\x22' then some ('\x22' :: (value ++ ['\x22']))
  else none

/-- The condition that an attribute has the value that it has at an element; none if the value says
nothing or cannot be written. -/
def condition? (e : Element) (name : String) : Option String := do
  let value ← e.meaningful? name
  let literal ← literal? value.toList
  pure ("[@" ++ name ++ "=" ++ String.ofList literal ++ "]")

/-- All elements with the tag of an element. -/
def seedExpression (e : Element) : String :=
  "//" ++ e.tag

/-- All elements with the tag of an element and its identity. -/
def baseExpression (e : Element) : String :=
  seedExpression e ++ (identityAttributes.findSome? (condition? e)).getD ""

/-- The `i`-th of the elements that an expression selects, counted from 1. -/
def indexed (expression : String) (i : Nat) : String :=
  "(" ++ expression ++ ")[" ++ toString i ++ "]"

theorem toList_indexed (expression : String) (i : Nat) : (indexed expression i).toList =
    '(' :: (expression.toList ++ ')' :: '[' :: (Nat.toDigits 10 i ++ [']'])) := by
  have hdigits : (toString i).toList = Nat.toDigits 10 i := Nat.toList_repr
  simp only [indexed, String.toList_append, hdigits]
  simp

/-- What a search comes to, and the questions asked until its end. -/
abbrev Search (α : Type) := Except InspectionError α × Questions

/-- Tries `left` positions from the `i`-th on until the indexed expression selects exactly the
reference. -/
def refine (v : Evaluator) (reference base : String) (count : Nat) :
    Nat → Nat → Questions → Search Locator
  | 0, _, asked => (.error (.ambiguous base count), asked)
  | left + 1, i, asked =>
    let candidate := indexed base i
    match v.answer asked candidate with
    | .error e => (.error e, candidate :: asked)
    | .ok found =>
      if found = [reference] then (.ok ⟨candidate, count, true⟩, candidate :: asked)
      else refine v reference base count left (i + 1) (candidate :: asked)

/-- An expression that selects exactly the element. -/
def synthesize (v : Evaluator) (asked : Questions) (e : Element) : Search Locator :=
  let base := baseExpression e
  match v.answer asked base with
  | .error e => (.error e, base :: asked)
  | .ok [] => (.error (.unmatched base), base :: asked)
  | .ok [only] =>
    if only = e.reference then (.ok ⟨base, 1, false⟩, base :: asked)
    else (.error (.ambiguous base 1), base :: asked)
  | .ok found => refine v e.reference base found.length found.length 1 (base :: asked)

/-- The reference of the only element that an expression selects. -/
def confirm (v : Evaluator) (asked : Questions) (expression : String) : Search String :=
  let result :=
    match v.answer asked expression with
    | .error e => .error e
    | .ok [] => .error (.unmatched expression)
    | .ok [only] => .ok only
    | .ok found => .error (.ambiguous expression found.length)
  (result, expression :: asked)

end Locator

end ScreenInspector
