/-
  ScreenInspector/Proofs/ExpressionGrammar.lean
  =============================================
  **The grammar of expressions**, as a definition of which tokens make up an expression.

  A part of the grammar is a `Language`: it derives a beginning of some tokens, given with the
  tokens that are left.  The rules are those of the levels of binding:

      Either := Both ('or' Both)*             Both := Equality ('and' Equality)*
      Equality := Order (('=' | '!=') Order)*
      Order := Sum (('<' | '<=' | '>' | '>=') Sum)*
      Sum := Product (('+' | '-') Product)*   Product := Sign (('*' | 'div' | 'mod') Sign)*
      Sign := '-'* Union                      Union := Path ('|' Path)*
      Path := '/' Steps? | '//' Steps | Steps | Primary Predicates (('/' | '//') Steps)?
      Steps := Step (('/' | '//') Step)*
      Step := '.' | '..' | ('@' | Axis '::')? Test Predicates
      Test := '*' | Name | 'node' '(' ')' | 'text' '(' ')'
      Predicates := ('[' Expression ']')*
      Primary := '(' Expression ')' | Literal | Number | Function '(' Arguments
      Arguments := ')' | Expression (',' Expression)* ')'

  with these conditions: a slash stands alone only if what follows it begins no step; the name of an
  axis or function is known; an attribute comes last among its steps and has neither predicates nor
  a test for texts; a function takes as many arguments as it is given; and an expression is nested
  to a bounded number of levels, itself included.

  In the place of an operand, a name before a parenthesis is a function unless it is the name of a
  node type.  This needs no condition: no function has the name of a node type.
-/
import ScreenInspector.Expression.Grammar

namespace ScreenInspector.Expression.Grammar

/-- Which beginnings of tokens a part of the grammar derives, given with the tokens after them. -/
abbrev Language := List Token → List Token → Prop

/-! ### Chains of operands -/

/-- Any number of operators with their right operands. -/
inductive Links (IsOperator : Token → Prop) (operand : Language) : Language
  | stop (ts : List Token) : Links IsOperator operand ts ts
  | next {t : Token} {ts mid rest : List Token} : IsOperator t → operand ts mid →
      Links IsOperator operand mid rest → Links IsOperator operand (t :: ts) rest

/-- An operand and any number of operators with their right operands. -/
def Chain (IsOperator : Token → Prop) (operand : Language) : Language := fun ts rest =>
  ∃ mid, operand ts mid ∧ Links IsOperator operand mid rest

def IsOr (t : Token) : Prop := t = .name "or"

def IsAnd (t : Token) : Prop := t = .name "and"

def IsEquality (t : Token) : Prop := t = .equal ∨ t = .notEqual

def IsOrder (t : Token) : Prop :=
  t = .less ∨ t = .lessEqual ∨ t = .greater ∨ t = .greaterEqual

def IsSum (t : Token) : Prop := t = .plus ∨ t = .minus

def IsProduct (t : Token) : Prop := t = .star ∨ t = .name "div" ∨ t = .name "mod"

def IsPipe (t : Token) : Prop := t = .pipe

def IsSeparator (t : Token) : Prop := t = .slash ∨ t = .doubleSlash

/-! ### Steps -/

/-- A node test, and whether it asks for texts. -/
inductive Test : Bool → Language
  | anyElement (rest : List Token) : Test false (.star :: rest) rest
  | name (n : String) (rest : List Token) : Test false (.name n :: rest) rest
  | node (rest : List Token) : Test false (.name "node" :: .openParen :: .closeParen :: rest) rest
  | text (rest : List Token) : Test true (.name "text" :: .openParen :: .closeParen :: rest) rest

/-- Which tokens can begin a step: of the names before a parenthesis only those of node types. -/
inductive BeginsStep : List Token → Prop
  | dot (ts : List Token) : BeginsStep (.dot :: ts)
  | doubleDot (ts : List Token) : BeginsStep (.doubleDot :: ts)
  | mark (ts : List Token) : BeginsStep (.at :: ts)
  | star (ts : List Token) : BeginsStep (.star :: ts)
  | name (n : String) {ts : List Token} : (∀ more, ts ≠ .openParen :: more) →
      BeginsStep (.name n :: ts)
  | nodeType {n : String} (ts : List Token) :
      n = "node" ∨ n = "text" ∨ n = "comment" ∨ n = "processing-instruction" →
      BeginsStep (.name n :: .openParen :: ts)

variable (nested : Language)

inductive Predicates : Language
  | none (ts : List Token) : Predicates ts ts
  | more {ts mid rest : List Token} : nested ts (.closeBracket :: mid) → Predicates mid rest →
      Predicates (.openBracket :: ts) rest

/-- A step, and whether it leads to attributes. -/
inductive Step : Bool → Language
  | self (rest : List Token) : Step false (.dot :: rest) rest
  | parent (rest : List Token) : Step false (.doubleDot :: rest) rest
  | child {texts : Bool} {ts mid rest : List Token} : Test texts ts mid →
      Predicates nested mid rest → Step false ts rest
  | along {n : String} {axis : Axis} {texts : Bool} {ts mid rest : List Token} :
      Axis.ofName? n = some axis → axis ≠ .attribute → Test texts ts mid →
      Predicates nested mid rest → Step false (.name n :: .doubleColon :: ts) rest
  | attributeMark {ts rest : List Token} : Test false ts rest → Step true (.at :: ts) rest
  | attributeAxis {n : String} {ts rest : List Token} : Axis.ofName? n = some .attribute →
      Test false ts rest → Step true (.name n :: .doubleColon :: ts) rest

/-- One step or more, separated by slashes, of which only the last may lead to attributes. -/
inductive Steps : Language
  | last {isAttribute : Bool} {ts rest : List Token} : Step nested isAttribute ts rest →
      Steps ts rest
  | more {t : Token} {ts mid rest : List Token} : Step nested false ts (t :: mid) →
      IsSeparator t → Steps mid rest → Steps ts rest

/-! ### Primary expressions -/

/-- One argument or more up to the closing parenthesis, and their number. -/
inductive ArgumentList : Nat → Language
  | last {ts rest : List Token} : nested ts (.closeParen :: rest) → ArgumentList 1 ts rest
  | more {count : Nat} {ts mid rest : List Token} : nested ts (.comma :: mid) →
      ArgumentList count mid rest → ArgumentList (count + 1) ts rest

/-- The arguments of a call after its opening parenthesis, and their number. -/
inductive Arguments : Nat → Language
  | none (rest : List Token) : Arguments 0 (.closeParen :: rest) rest
  | some {count : Nat} {ts rest : List Token} : ArgumentList nested count ts rest →
      Arguments count ts rest

inductive Primary : Language
  | parenthesized {ts rest : List Token} : nested ts (.closeParen :: rest) →
      Primary (.openParen :: ts) rest
  | literal (text : String) (rest : List Token) : Primary (.literal text :: rest) rest
  | number (value : Float) (rest : List Token) : Primary (.number value :: rest) rest
  | call {n : String} {f : Function} {count : Nat} {ts rest : List Token} :
      Function.ofWord? n = some f → Arguments nested count ts rest → f.accepts count = true →
      Primary (.name n :: .openParen :: ts) rest

/-! ### Levels of binding -/

inductive StepsAfter : Language
  | none (ts : List Token) : StepsAfter ts ts
  | some {t : Token} {ts rest : List Token} : IsSeparator t → Steps nested ts rest →
      StepsAfter (t :: ts) rest

def Filter : Language := fun ts rest =>
  ∃ mid mid', Primary nested ts mid ∧ Predicates nested mid mid' ∧ StepsAfter nested mid' rest

/-- A location path, from the document or not, or a primary expression. -/
inductive Path : Language
  | document {rest : List Token} : ¬ BeginsStep rest → Path (.slash :: rest) rest
  | absolute {t : Token} {ts rest : List Token} : IsSeparator t → Steps nested ts rest →
      Path (t :: ts) rest
  | relative {ts rest : List Token} : Steps nested ts rest → Path ts rest
  | filter {ts rest : List Token} : Filter nested ts rest → Path ts rest

def Union : Language := Chain IsPipe (Path nested)

/-- An operand under any number of minus signs. -/
inductive Sign : Language
  | operand {ts rest : List Token} : Union nested ts rest → Sign ts rest
  | minus {ts rest : List Token} : Sign ts rest → Sign (.minus :: ts) rest

def Product : Language := Chain IsProduct (Sign nested)

def Sum : Language := Chain IsSum (Product nested)

def Order : Language := Chain IsOrder (Sum nested)

def Equality : Language := Chain IsEquality (Order nested)

def Both : Language := Chain IsAnd (Equality nested)

def Either : Language := Chain IsOr (Both nested)

/-- An expression in which at most so many levels are nested, its own included. -/
def Nested : Nat → Language
  | 0 => fun _ _ => False
  | levels + 1 => Either (Nested levels)

/-- Whether tokens make up an expression that is not nested too deep. -/
def IsExpression (ts : List Token) : Prop :=
  Nested depthLimit ts []

end ScreenInspector.Expression.Grammar
