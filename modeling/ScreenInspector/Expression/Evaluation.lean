/-
  ScreenInspector/Expression/Evaluation.lean
  ==========================================
  **What expressions mean** over a document.

  The meaning of an expression is a function of the context: a node, its position and the number of
  nodes it is counted among.  `Expr.meaning` puts it together from the meanings of the parts, and
  everything it is put together with works on meanings alone: `either`, `both`, `comparisons`, …,
  and for paths `select`, `filterBy` and `followSteps`.

  Lists of nodes are in document order and without repetition (`inDocumentOrder`), whatever order
  the axes have.  A predicate sees the nodes of its step from one context node in the order of the
  axis; a number as its value keeps the node with that position.
-/
import ScreenInspector.Expression.Axis
import ScreenInspector.Expression.Fault
import ScreenInspector.Expression.Value

namespace ScreenInspector.Expression

open ScreenInspector.Markup (Document)

/-- What an expression is evaluated at. -/
structure Context where
  node : Nat
  position : Nat
  size : Nat
deriving DecidableEq, Repr

/-- What an expression means. -/
abbrev Meaning := Context → Except Fault Value

/-! ### Lists of nodes -/

/-- A list without the members that equal the one before them. -/
def withoutRepeats : List Nat → List Nat
  | a :: b :: rest => if a = b then withoutRepeats (b :: rest) else a :: withoutRepeats (b :: rest)
  | short => short

/-- Nodes in document order, each once. -/
def inDocumentOrder (ids : List Nat) : List Nat :=
  withoutRepeats (ids.mergeSort fun a b => decide (a ≤ b))

/-- Whether a predicate with this value keeps the node at a position. -/
def Value.keeps (position : Nat) : Value → Bool
  | .number x => x == Number.ofNat position
  | v => v.toBool

/-- The nodes that a predicate keeps, counted from a position on. -/
def keepFrom (predicate : Meaning) (size : Nat) : Nat → List Nat → Except Fault (List Nat)
  | _, [] => .ok []
  | position, n :: rest => do
    let v ← predicate ⟨n, position, size⟩
    let kept ← keepFrom predicate size (position + 1) rest
    pure (if v.keeps position then n :: kept else kept)

/-- The nodes that all predicates keep, each counting what the one before it left. -/
def filterBy : List Meaning → List Nat → Except Fault (List Nat)
  | [], ns => .ok ns
  | predicate :: rest, ns => do
    let kept ← keepFrom predicate ns.length 1 ns
    filterBy rest kept

/-! ### Steps -/

/-- A step with the meanings of its predicates. -/
structure StepMeaning where
  axis : Axis
  test : NodeTest
  predicates : List Meaning

/-- The nodes that a step leads to from one node, the nearest first. -/
def StepMeaning.select (d : Document) (s : StepMeaning) (n : Nat) : Except Fault (List Nat) :=
  filterBy s.predicates ((s.axis.nodes d n).filter fun m => s.test.admits d m)

/-- The nodes that a step leads to from each of some nodes, one after the other. -/
def StepMeaning.selectAll (d : Document) (s : StepMeaning) : List Nat → Except Fault (List Nat)
  | [] => .ok []
  | n :: rest => do
    let found ← s.select d n
    let more ← s.selectAll d rest
    pure (found ++ more)

/-- The values of the attributes of some nodes that pass a test. -/
def attributeValues (d : Document) (test : NodeTest) (ns : List Nat) : List String :=
  ns.flatMap fun n =>
    ((d.attributes n).filter fun a => test.admitsAttribute a.name).map Markup.Attribute.value

/-- What steps lead to from some nodes. -/
def followSteps (d : Document) : List StepMeaning → List Nat → Except Fault Value
  | [], ns => .ok (.nodes ns)
  | s :: rest, ns =>
    if s.axis = .attribute then .ok (.attributes (attributeValues d s.test ns))
    else do
      let found ← s.selectAll d ns
      followSteps d rest (inDocumentOrder found)

/-! ### Operators -/

namespace Meaning

/-- Whether some operand is true; those after it are not looked at. -/
def either : List Meaning → Meaning
  | [], _ => .ok (.boolean false)
  | m :: rest, c => do
    let v ← m c
    if v.toBool then pure (.boolean true) else either rest c

/-- Whether every operand is true; those after one that is not are not looked at. -/
def both : List Meaning → Meaning
  | [], _ => .ok (.boolean true)
  | m :: rest, c => do
    let v ← m c
    if v.toBool then both rest c else pure (.boolean false)

/-- Comparisons from left to right, each of the outcome so far with the next operand. -/
def comparisons (d : Document) : List (Comparison × Meaning) → Value → Meaning
  | [], left, _ => .ok left
  | (op, m) :: rest, left, c => do
    let right ← m c
    comparisons d rest (.boolean (Value.compare d op left right)) c

/-- An operation on numbers. -/
def calculate : Arithmetic → Float → Float → Float
  | .add, x, y => x + y
  | .subtract, x, y => x - y
  | .multiply, x, y => x * y
  | .divide, x, y => x / y
  | .remainder, x, y => Number.remainder x y

/-- Operations from left to right. -/
def calculations (d : Document) : List (Arithmetic × Meaning) → Float → Meaning
  | [], x, _ => .ok (.number x)
  | (op, m) :: rest, x, c => do
    let right ← m c
    calculations d rest (calculate op x (right.toNumber d)) c

/-- The nodes of all operands, one after the other. -/
def collect : List Meaning → Context → Except Fault (List Nat)
  | [], _ => .ok []
  | m :: rest, c => do
    match ← m c with
    | .nodes ids =>
      let more ← collect rest c
      pure (ids ++ more)
    | _ => .error .unionOfOthers

/-- The values of arguments. -/
def arguments : List Meaning → Context → Except Fault (List Value)
  | [], _ => .ok []
  | m :: rest, c => do
    let v ← m c
    let more ← arguments rest c
    pure (v :: more)

end Meaning

/-! ### Functions -/

/-- The words of a text with one space between them. -/
def singleSpaced (s : String) : String :=
  Text.joined " " ((Text.words s.toList).map String.ofList)

/-- The name of the first node of some, if it is an element. -/
def nameOf (d : Document) (ids : List Nat) : String :=
  match ids with
  | n :: _ => (d.name? n).getD ""
  | [] => ""

/-- The text of an argument, or of the context node if it is missing. -/
def textArgument (d : Document) (c : Context) (values : List Value) (i : Nat) : String :=
  match values[i]? with
  | some v => v.toText d
  | none => d.textOf c.node

/-- The value of a call. -/
def Function.apply (d : Document) (c : Context) (values : List Value) :
    Function → Except Fault Value
  | .last => .ok (.number (Number.ofNat c.size))
  | .position => .ok (.number (Number.ofNat c.position))
  | .count =>
    match values.head? with
    | some (.nodes ids) => .ok (.number (Number.ofNat ids.length))
    | some (.attributes found) => .ok (.number (Number.ofNat found.length))
    | _ => .error .countOfOthers
  | .not => .ok (.boolean !(values.head?.any Value.toBool))
  | .true => .ok (.boolean Bool.true)
  | .false => .ok (.boolean Bool.false)
  | .boolean => .ok (.boolean (values.head?.any Value.toBool))
  | .string => .ok (.text (textArgument d c values 0))
  | .number =>
    .ok (.number (match values.head? with
      | some v => v.toNumber d
      | none => numberOfText (d.textOf c.node)))
  | .concat => .ok (.text (String.join (values.map (Value.toText d))))
  | .contains =>
    .ok (.boolean
      (Text.hasInfix (textArgument d c values 1).toList (textArgument d c values 0).toList))
  | .startsWith =>
    .ok (.boolean
      ((textArgument d c values 1).toList.isPrefixOf (textArgument d c values 0).toList))
  | .stringLength => .ok (.number (Number.ofNat (textArgument d c values 0).toList.length))
  | .normalizeSpace => .ok (.text (singleSpaced (textArgument d c values 0)))
  | .name | .localName =>
    match values.head? with
    | none => .ok (.text (nameOf d [c.node]))
    | some (.nodes ids) => .ok (.text (nameOf d ids))
    | some _ => .error .nameOfOthers

/-! ### Expressions -/

mutual

/-- What an expression means over a document. -/
def Expr.meaning (d : Document) : Expr → Meaning
  | .either operands => Meaning.either (Expr.meanings d operands)
  | .both operands => Meaning.both (Expr.meanings d operands)
  | .compare first rest => fun c => do
    let left ← first.meaning d c
    Meaning.comparisons d (Expr.comparands d rest) left c
  | .arithmetic first rest => fun c => do
    let left ← first.meaning d c
    Meaning.calculations d (Expr.terms d rest) (left.toNumber d) c
  | .negate operand => fun c => do
    let v ← operand.meaning d c
    pure (.number (-(v.toNumber d)))
  | .union parts => fun c => do
    let ids ← Meaning.collect (Expr.meanings d parts) c
    pure (.nodes (inDocumentOrder ids))
  | .path absolute steps => fun c =>
    followSteps d (Step.meanings d steps) [if absolute then 0 else c.node]
  | .filter primary predicates steps => fun c => do
    match ← primary.meaning d c with
    | .nodes ids =>
      let kept ← filterBy (Expr.meanings d predicates) ids
      followSteps d (Step.meanings d steps) kept
    | _ => .error .filterOfOthers
  | .literal text => fun _ => .ok (.text text)
  | .number value => fun _ => .ok (.number value)
  | .call f args => fun c => do
    let values ← Meaning.arguments (Expr.meanings d args) c
    f.apply d c values

/-- The meanings of expressions. -/
def Expr.meanings (d : Document) : List Expr → List Meaning
  | [] => []
  | e :: rest => e.meaning d :: Expr.meanings d rest

/-- The meanings of right operands of comparisons. -/
def Expr.comparands (d : Document) : List (Comparison × Expr) → List (Comparison × Meaning)
  | [] => []
  | (op, e) :: rest => (op, e.meaning d) :: Expr.comparands d rest

/-- The meanings of right operands of operations on numbers. -/
def Expr.terms (d : Document) : List (Arithmetic × Expr) → List (Arithmetic × Meaning)
  | [] => []
  | (op, e) :: rest => (op, e.meaning d) :: Expr.terms d rest

/-- A step with the meanings of its predicates. -/
def Step.meaning (d : Document) : Step → StepMeaning
  | .step axis test predicates => ⟨axis, test, Expr.meanings d predicates⟩

/-- The meanings of steps. -/
def Step.meanings (d : Document) : List Step → List StepMeaning
  | [] => []
  | s :: rest => s.meaning d :: Step.meanings d rest

end

/-- The value of an expression at the document itself. -/
def Expr.evaluate (d : Document) (e : Expr) : Except Fault Value :=
  e.meaning d ⟨0, 1, 1⟩

end ScreenInspector.Expression
