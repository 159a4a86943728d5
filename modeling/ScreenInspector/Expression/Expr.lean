/-
  ScreenInspector/Expression/Expr.lean
  ====================================
  **Locator expressions**: location paths over a document with predicates, the operators of
  comparison and arithmetic, and a fixed set of functions.

  Operators of one level that follow one another form one expression with a list, so the depth of
  an expression grows with its brackets and not with its length.
-/

namespace ScreenInspector.Expression

/-- The six comparisons. -/
inductive Comparison where
  | equal
  | notEqual
  | less
  | lessEqual
  | greater
  | greaterEqual
deriving DecidableEq, Repr, Inhabited

/-- The five operations on numbers. -/
inductive Arithmetic where
  | add
  | subtract
  | multiply
  | divide
  | remainder
deriving DecidableEq, Repr, Inhabited

/-- The direction of a step. -/
inductive Axis where
  | child
  | descendant
  | descendantOrSelf
  | self
  | parent
  | ancestor
  | ancestorOrSelf
  | followingSibling
  | precedingSibling
  | following
  | preceding
  | attribute
deriving DecidableEq, Repr, Inhabited

/-- The axis of a name. -/
def Axis.ofName? (name : String) : Option Axis :=
  if name = "child" then some .child
  else if name = "descendant" then some .descendant
  else if name = "descendant-or-self" then some .descendantOrSelf
  else if name = "self" then some .self
  else if name = "parent" then some .parent
  else if name = "ancestor" then some .ancestor
  else if name = "ancestor-or-self" then some .ancestorOrSelf
  else if name = "following-sibling" then some .followingSibling
  else if name = "preceding-sibling" then some .precedingSibling
  else if name = "following" then some .following
  else if name = "preceding" then some .preceding
  else if name = "attribute" then some .attribute
  else none

/-- Which nodes of an axis a step takes: elements of a name, all elements, all nodes, or texts. -/
inductive NodeTest where
  | name (name : String)
  | anyElement
  | anyNode
  | text
deriving DecidableEq, Repr, Inhabited

/-- The functions that can be called. -/
inductive Function where
  | last
  | position
  | count
  | not
  | true
  | false
  | boolean
  | string
  | number
  | concat
  | contains
  | startsWith
  | stringLength
  | normalizeSpace
  | name
  | localName
deriving DecidableEq, Repr, Inhabited

namespace Function

/-- The word that calls a function. -/
def word : Function → String
  | .last => "last"
  | .position => "position"
  | .count => "count"
  | .not => "not"
  | .true => "true"
  | .false => "false"
  | .boolean => "boolean"
  | .string => "string"
  | .number => "number"
  | .concat => "concat"
  | .contains => "contains"
  | .startsWith => "starts-with"
  | .stringLength => "string-length"
  | .normalizeSpace => "normalize-space"
  | .name => "name"
  | .localName => "local-name"

/-- All functions. -/
def all : List Function :=
  [.last, .position, .count, .not, .true, .false, .boolean, .string, .number, .concat, .contains,
    .startsWith, .stringLength, .normalizeSpace, .name, .localName]

/-- The function that a word calls. -/
def ofWord? (w : String) : Option Function :=
  all.find? fun f => f.word == w

/-- The least and the greatest number of arguments; without a greatest there is no bound. -/
def arity : Function → Nat × Option Nat
  | .last | .position | .true | .false => (0, some 0)
  | .count | .not | .boolean => (1, some 1)
  | .string | .number | .stringLength | .normalizeSpace | .name | .localName => (0, some 1)
  | .contains | .startsWith => (2, some 2)
  | .concat => (2, none)

/-- Whether a function takes so many arguments. -/
def accepts (f : Function) (n : Nat) : Bool :=
  decide (f.arity.1 ≤ n) &&
    match f.arity.2 with
    | some most => decide (n ≤ most)
    | none => Bool.true

end Function

mutual

/-- An expression. -/
inductive Expr where
  | either (operands : List Expr)
  | both (operands : List Expr)
  | compare (first : Expr) (rest : List (Comparison × Expr))
  | arithmetic (first : Expr) (rest : List (Arithmetic × Expr))
  | negate (operand : Expr)
  | union (parts : List Expr)
  | path (absolute : Bool) (steps : List Step)
  | filter (primary : Expr) (predicates : List Expr) (steps : List Step)
  | literal (text : String)
  | number (value : Float)
  | call (function : Function) (arguments : List Expr)

/-- A step of a location path. -/
inductive Step where
  | step (axis : Axis) (test : NodeTest) (predicates : List Expr)

end

instance : Inhabited Expr := ⟨.literal ""⟩

instance : Inhabited Step := ⟨.step .self .anyNode []⟩

namespace Step

def axis : Step → Axis
  | .step a _ _ => a

def test : Step → NodeTest
  | .step _ t _ => t

def predicates : Step → List Expr
  | .step _ _ ps => ps

/-- The step that two slashes stand for: a node and everything inside it. -/
def everywhere : Step :=
  .step .descendantOrSelf .anyNode []

end Step

end ScreenInspector.Expression
