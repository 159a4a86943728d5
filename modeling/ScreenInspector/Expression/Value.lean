/-
  ScreenInspector/Expression/Value.lean
  =====================================
  **Values of expressions** and how they turn into one another.

  A value is a list of nodes, a list of attribute values, a text, a number or a truth value.  The
  text of a list is that of its first member.  A text that is no plain decimal is the number NaN.

  Two lists compare if any two of their members do; a list and a truth value compare by whether the
  list has members; a list and anything else compare if any member does.
-/
import ScreenInspector.Expression.Expr
import ScreenInspector.Markup.Document
import ScreenInspector.Number.Reading
import ScreenInspector.Text.CharClass

namespace ScreenInspector.Expression

open ScreenInspector.Markup (Document)

inductive Value where
  | nodes (ids : List Nat)
  | attributes (values : List String)
  | text (value : String)
  | number (value : Float)
  | boolean (value : Bool)
deriving Inhabited

/-- The number that a text writes: a decimal without exponent and plus sign, blanks around it
apart. -/
def numberOfText (s : String) : Float :=
  let cs := Text.trimChars s.toList
  if cs.isEmpty || !cs.all fun c => c.isDigit || c == '.' || c == '-' then Number.nan
  else (Number.ofText? cs).getD Number.nan

/-- Whole numbers below this are written as such. -/
def wholeLimit : Nat := Nat.pow 10 15

/-- The text of a number: whole numbers without a point and without the sign of zero. -/
def textOfNumber (x : Float) : String :=
  if x.isNaN then "NaN"
  else if !Number.isFinite x then if 0.0 < x then "Infinity" else "-Infinity"
  else
    match Number.toInt? x with
    | some n => if n.natAbs < wholeLimit then toString n else Number.plainText x
    | none => Number.plainText x

namespace Value

/-- The texts of the members of a list; no other value has members. -/
def members? (d : Document) : Value → Option (List String)
  | .nodes ids => some (ids.map d.textOf)
  | .attributes values => some values
  | _ => none

def toBool : Value → Bool
  | .nodes ids => !ids.isEmpty
  | .attributes values => !values.isEmpty
  | .text s => s != ""
  | .number x => !(x == 0.0) && !x.isNaN
  | .boolean b => b

def toText (d : Document) : Value → String
  | .nodes (n :: _) => d.textOf n
  | .nodes [] => ""
  | .attributes values => values.headD ""
  | .text s => s
  | .number x => textOfNumber x
  | .boolean b => if b then "true" else "false"

def toNumber (d : Document) : Value → Float
  | .number x => x
  | .boolean b => if b then 1.0 else 0.0
  | v => numberOfText (v.toText d)

def isBoolean : Value → Bool
  | .boolean _ => true
  | _ => false

def isNumber : Value → Bool
  | .number _ => true
  | _ => false

/-! ### Comparing -/

/-- Whether two values that are no lists are equal: as truth values if one of them is one, else as
numbers if one of them is one, else as texts. -/
def equalAtoms (d : Document) (l r : Value) : Bool :=
  if l.isBoolean || r.isBoolean then l.toBool == r.toBool
  else if l.isNumber || r.isNumber then l.toNumber d == r.toNumber d
  else l.toText d == r.toText d

/-- Compares two values that are no lists. -/
def compareAtoms (d : Document) (op : Comparison) (l r : Value) : Bool :=
  match op with
  | .equal => equalAtoms d l r
  | .notEqual => !equalAtoms d l r
  | .less => decide (l.toNumber d < r.toNumber d)
  | .lessEqual => decide (l.toNumber d ≤ r.toNumber d)
  | .greater => decide (r.toNumber d < l.toNumber d)
  | .greaterEqual => decide (r.toNumber d ≤ l.toNumber d)

/-- Compares two values. -/
def compare (d : Document) (op : Comparison) (l r : Value) : Bool :=
  match l.members? d, r.members? d with
  | some ls, some rs => ls.any fun a => rs.any fun b => compareAtoms d op (.text a) (.text b)
  | some ls, none =>
    if r.isBoolean then compareAtoms d op (.boolean !ls.isEmpty) r
    else ls.any fun a => compareAtoms d op (.text a) r
  | none, some rs =>
    if l.isBoolean then compareAtoms d op l (.boolean !rs.isEmpty)
    else rs.any fun b => compareAtoms d op l (.text b)
  | none, none => compareAtoms d op l r

end Value

end ScreenInspector.Expression
