/-
  ScreenInspector/Expression/Grammar.lean
  =======================================
  **The grammar of expressions**, read by one parser per level of binding.

  From the weakest to the strongest: `or`, `and`, equality, order, sums, products, signs, unions,
  paths.  What stands in parentheses, in brackets and between the commas of a call is a complete
  expression again.  Each level takes the parser of such nested expressions as a parameter, and
  `parseExpr` ties the knot: it recurses on the number of levels that may still be opened, so the
  bound on nesting and the end of the recursion are one.

  Loops run over at most as many rounds as there are tokens left.

  A slash at the beginning is followed by steps whenever the next token can begin one.  A name
  before a parenthesis begins a step only if it is the name of a node type, and else is a function.
-/
import ScreenInspector.Expression.Lexer

namespace ScreenInspector.Expression

/-- What a parser makes of tokens: a result and the tokens after it. -/
abbrev Parser (α : Type) := List Token → Except Fault (α × List Token)

/-! ### Chains of operands -/

/-- Operators with their right operands, for at most so many rounds. -/
def chainTail {α β : Type} (operator : Token → Option β) (operand : Parser α) :
    Nat → Parser (List (β × α))
  | 0, ts => .ok ([], ts)
  | _ + 1, [] => .ok ([], [])
  | fuel + 1, t :: rest =>
    match operator t with
    | none => .ok ([], t :: rest)
    | some o => do
      let (a, rest) ← operand rest
      let (more, rest) ← chainTail operator operand fuel rest
      pure ((o, a) :: more, rest)

/-- An operand and any number of operators with their right operands. -/
def chain {α β : Type} (operator : Token → Option β) (operand : Parser α) :
    Parser (α × List (β × α)) := fun ts => do
  let (first, rest) ← operand ts
  let (more, rest) ← chainTail operator operand rest.length rest
  pure ((first, more), rest)

/-- Whether a token is a given name. -/
def Token.isWord (word : String) : Token → Option Unit
  | .name n => if n = word then some () else none
  | _ => none

def Token.equality? : Token → Option Comparison
  | .equal => some .equal
  | .notEqual => some .notEqual
  | _ => none

def Token.order? : Token → Option Comparison
  | .less => some .less
  | .lessEqual => some .lessEqual
  | .greater => some .greater
  | .greaterEqual => some .greaterEqual
  | _ => none

def Token.sum? : Token → Option Arithmetic
  | .plus => some .add
  | .minus => some .subtract
  | _ => none

def Token.product? : Token → Option Arithmetic
  | .star => some .multiply
  | .name n =>
    if n = "div" then some .divide else if n = "mod" then some .remainder else none
  | _ => none

def Token.pipe? : Token → Option Unit
  | .pipe => some ()
  | _ => none

/-- The separator before a step, and whether it is the double slash. -/
def Token.separator? : Token → Option Bool
  | .slash => some false
  | .doubleSlash => some true
  | _ => none

/-- Operands joined by operators of one kind; a single one stays as it is. -/
def Expr.joined (wrap : List Expr → Expr) : Expr × List (Unit × Expr) → Expr
  | (first, []) => first
  | (first, rest) => wrap (first :: rest.map Prod.snd)

/-- Operands with the operators between them; a single one stays as it is. -/
def Expr.chained {β : Type} (wrap : Expr → List (β × Expr) → Expr) : Expr × List (β × Expr) → Expr
  | (first, []) => first
  | (first, rest) => wrap first rest

/-! ### Brackets -/

/-- The tokens after one that has to come next. -/
def expect (expected : Token) : List Token → Except Fault (List Token)
  | t :: rest => if t == expected then .ok rest else .error (.expected expected (some t))
  | [] => .error (.expected expected none)

theorem expect_eq_ok_iff {expected : Token} {ts rest : List Token}
    (h : ∀ value, expected ≠ .number value) :
    expect expected ts = .ok rest ↔ ts = expected :: rest := by
  cases ts with
  | nil => simp [expect]
  | cons t more =>
    rw [expect, List.cons.injEq, ← Token.beq_iff_eq_of_ne_number h]
    by_cases heq : (t == expected) = true
    · simp [heq]
    · simp [heq]

def closeParen : List Token → Except Fault (List Token) := expect .closeParen

def closeBracket : List Token → Except Fault (List Token) := expect .closeBracket

/-- Predicates, for at most so many rounds. -/
def parsePredicatesLoop (nested : Parser Expr) : Nat → Parser (List Expr)
  | fuel + 1, .openBracket :: rest => do
    let (e, rest) ← nested rest
    let rest ← closeBracket rest
    let (more, rest) ← parsePredicatesLoop nested fuel rest
    pure (e :: more, rest)
  | _, ts => .ok ([], ts)

/-- Any number of predicates. -/
def parsePredicates (nested : Parser Expr) : Parser (List Expr) := fun ts =>
  parsePredicatesLoop nested ts.length ts

/-! ### Steps -/

/-- Names that stand for a node type before a parenthesis. -/
def isNodeType (name : String) : Bool :=
  name == "node" || name == "text" || name == "comment" || name == "processing-instruction"

/-- Whether tokens can begin a step. -/
def beginsStep : List Token → Bool
  | .dot :: _ => true
  | .doubleDot :: _ => true
  | .at :: _ => true
  | .star :: _ => true
  | .name n :: .openParen :: _ => isNodeType n
  | .name _ :: _ => true
  | _ => false

/-- A node test. -/
def parseTest : Parser NodeTest
  | .star :: rest => .ok (.anyElement, rest)
  | .name n :: .openParen :: rest =>
    if n = "node" then (closeParen rest).map fun after => (.anyNode, after)
    else if n = "text" then (closeParen rest).map fun after => (.text, after)
    else .error (.unknownTest n)
  | .name n :: rest => .ok (.name n, rest)
  | ts => .error (.expectedTest ts.head?)

/-- A step after its axis.  An attribute has no predicates and is no text. -/
def parseStepOn (nested : Parser Expr) (axis : Axis) : Parser Step := fun ts => do
  let (test, rest) ← parseTest ts
  let (predicates, rest) ← parsePredicates nested rest
  if axis = .attribute ∧ (test = .text ∨ predicates.isEmpty = false) then
    .error .attributeWithConditions
  else pure (.step axis test predicates, rest)

/-- A step. -/
def parseStep (nested : Parser Expr) : Parser Step
  | .dot :: rest => .ok (.step .self .anyNode [], rest)
  | .doubleDot :: rest => .ok (.step .parent .anyNode [], rest)
  | .at :: rest => parseStepOn nested .attribute rest
  | .name n :: .doubleColon :: rest =>
    match Axis.ofName? n with
    | some axis => parseStepOn nested axis rest
    | none => .error (.unknownAxis n)
  | ts => parseStepOn nested .child ts

/-- The steps of a step and those after it, with the step that a double slash stands for. -/
def Step.spelledOut : Step × List (Bool × Step) → List Step
  | (first, rest) =>
    first :: rest.flatMap fun (double, s) => if double then [Step.everywhere, s] else [s]

/-- One step or more, separated by slashes.  Only the last may be an attribute. -/
def parseSteps (nested : Parser Expr) : Parser (List Step) := fun ts => do
  let (chained, rest) ← chain Token.separator? (parseStep nested) ts
  let steps := Step.spelledOut chained
  if steps.dropLast.any fun s => s.axis == .attribute then .error .attributeNotLast
  else pure (steps, rest)

/-! ### Primary expressions -/

/-- The arguments of a call up to its closing parenthesis, for at most so many rounds. -/
def parseArgumentsLoop (nested : Parser Expr) : Nat → Parser (List Expr)
  | 0, _ => .error .endOfExpression
  | fuel + 1, ts => do
    let (e, rest) ← nested ts
    match rest with
    | .comma :: rest =>
      let (more, rest) ← parseArgumentsLoop nested fuel rest
      pure (e :: more, rest)
    | rest =>
      let rest ← closeParen rest
      pure ([e], rest)

/-- The arguments of a call after its opening parenthesis. -/
def parseArguments (nested : Parser Expr) : Parser (List Expr)
  | .closeParen :: rest => .ok ([], rest)
  | ts => parseArgumentsLoop nested (ts.length + 1) ts

/-- A call after its opening parenthesis. -/
def parseCall (nested : Parser Expr) (name : String) : Parser Expr := fun ts =>
  match Function.ofWord? name with
  | none => .error (.unknownFunction name)
  | some f => do
    let (arguments, rest) ← parseArguments nested ts
    if f.accepts arguments.length then pure (.call f arguments, rest)
    else .error (.argumentCount f arguments.length)

/-- An expression in parentheses, a literal, a number or a call. -/
def parsePrimary (nested : Parser Expr) : Parser Expr
  | .openParen :: rest => do
    let (e, rest) ← nested rest
    let rest ← closeParen rest
    pure (e, rest)
  | .literal text :: rest => .ok (.literal text, rest)
  | .number value :: rest => .ok (.number value, rest)
  | .name n :: .openParen :: rest => parseCall nested n rest
  | t :: _ => .error (.unexpected t)
  | [] => .error .endOfExpression

/-! ### Levels of binding -/

/-- Steps after a primary expression and its predicates. -/
def parseStepsAfter (nested : Parser Expr) : Parser (List Step)
  | .slash :: rest => parseSteps nested rest
  | .doubleSlash :: rest =>
    (parseSteps nested rest).map fun (steps, after) => (Step.everywhere :: steps, after)
  | ts => .ok ([], ts)

/-- A primary expression with predicates and steps. -/
def parseFilter (nested : Parser Expr) : Parser Expr := fun ts => do
  let (primary, rest) ← parsePrimary nested ts
  let (predicates, rest) ← parsePredicates nested rest
  let (steps, rest) ← parseStepsAfter nested rest
  if predicates.isEmpty && steps.isEmpty then pure (primary, rest)
  else pure (.filter primary predicates steps, rest)

/-- A location path or a primary expression. -/
def parsePath (nested : Parser Expr) : Parser Expr
  | .slash :: rest =>
    if beginsStep rest then
      (parseSteps nested rest).map fun (steps, after) => (.path true steps, after)
    else .ok (.path true [], rest)
  | .doubleSlash :: rest =>
    (parseSteps nested rest).map fun (steps, after) =>
      (.path true (Step.everywhere :: steps), after)
  | ts =>
    if beginsStep ts then
      (parseSteps nested ts).map fun (steps, after) => (.path false steps, after)
    else parseFilter nested ts

def parseUnion (nested : Parser Expr) : Parser Expr := fun ts =>
  (chain Token.pipe? (parsePath nested) ts).map fun (c, rest) => (Expr.joined .union c, rest)

/-- The minus signs at the beginning, and the tokens after them. -/
def splitMinus : List Token → Nat × List Token
  | .minus :: rest => ((splitMinus rest).1 + 1, (splitMinus rest).2)
  | ts => (0, ts)

/-- An operand under so many minus signs: two of them or one stand for all. -/
def Expr.negated (count : Nat) (operand : Expr) : Expr :=
  if count = 0 then operand
  else if count % 2 = 1 then .negate operand
  else .negate (.negate operand)

def parseSign (nested : Parser Expr) : Parser Expr := fun ts =>
  let (count, rest) := splitMinus ts
  (parseUnion nested rest).map fun (e, after) => (Expr.negated count e, after)

def parseProduct (nested : Parser Expr) : Parser Expr := fun ts =>
  (chain Token.product? (parseSign nested) ts).map fun (c, rest) =>
    (Expr.chained .arithmetic c, rest)

def parseSum (nested : Parser Expr) : Parser Expr := fun ts =>
  (chain Token.sum? (parseProduct nested) ts).map fun (c, rest) =>
    (Expr.chained .arithmetic c, rest)

def parseOrder (nested : Parser Expr) : Parser Expr := fun ts =>
  (chain Token.order? (parseSum nested) ts).map fun (c, rest) => (Expr.chained .compare c, rest)

def parseEquality (nested : Parser Expr) : Parser Expr := fun ts =>
  (chain Token.equality? (parseOrder nested) ts).map fun (c, rest) =>
    (Expr.chained .compare c, rest)

def parseBoth (nested : Parser Expr) : Parser Expr := fun ts =>
  (chain (Token.isWord "and") (parseEquality nested) ts).map fun (c, rest) =>
    (Expr.joined .both c, rest)

def parseEither (nested : Parser Expr) : Parser Expr := fun ts =>
  (chain (Token.isWord "or") (parseBoth nested) ts).map fun (c, rest) =>
    (Expr.joined .either c, rest)

/-- An expression in which at most so many levels are open at once, its own included. -/
def parseExpr : Nat → Parser Expr
  | 0 => fun _ => .error .tooDeep
  | levels + 1 => parseEither (parseExpr levels)

/-- The expression that tokens make up. -/
def Expr.ofTokens (ts : List Token) : Except Fault Expr :=
  if ts.isEmpty then .error .empty
  else do
    let (e, rest) ← parseExpr depthLimit ts
    match rest with
    | [] => pure e
    | t :: _ => .error (.leftOver t)

/-- The expression that a text writes. -/
def Expr.parse (text : String) : Except Fault Expr := do
  let ts ← Token.scan text
  Expr.ofTokens ts

end ScreenInspector.Expression
