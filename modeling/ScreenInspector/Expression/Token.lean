/-
  ScreenInspector/Expression/Token.lean
  =====================================
  **Tokens of an expression** and how messages show them.
-/
import ScreenInspector.Number.Reading
import ScreenInspector.Text.Quoted

namespace ScreenInspector.Expression

inductive Token where
  | slash
  | doubleSlash
  | openParen
  | closeParen
  | openBracket
  | closeBracket
  | at
  | comma
  | pipe
  | dot
  | doubleDot
  | doubleColon
  | star
  | plus
  | minus
  | equal
  | notEqual
  | less
  | lessEqual
  | greater
  | greaterEqual
  | name (text : String)
  | literal (text : String)
  | number (value : Float)
deriving BEq, Inhabited

namespace Token

/-- **Only numbers are compared by their values.**  Any other token is the same only as itself. -/
theorem beq_iff_eq_of_ne_number {t expected : Token} (h : ∀ value, expected ≠ .number value) :
    (t == expected) = true ↔ t = expected := by
  constructor
  · intro heq
    cases expected with
    | number value => exact absurd rfl (h value)
    | name text =>
      cases t with
      | name text' => exact congrArg name (eq_of_beq heq)
      | _ => cases heq
    | literal text =>
      cases t with
      | literal text' => exact congrArg literal (eq_of_beq heq)
      | _ => cases heq
    | _ => cases t <;> first | rfl | cases heq
  · rintro rfl
    cases t with
    | number value => exact absurd rfl (h value)
    | name text => exact beq_self_eq_true text
    | literal text => exact beq_self_eq_true text
    | _ => rfl

/-- Numbers in messages have a point or an exponent; an exponent is written below `10 ^ -4` and
from `10 ^ 16` on. -/
def numberLayout : Number.Layout :=
  { positionalFrom := some (-4), positionalBelow := some 16, pointZero := true, plusSign := false,
    tieUp := true }

/-- The token as messages show it. -/
def shown : Token → String
  | .slash => "Slash"
  | .doubleSlash => "DoubleSlash"
  | .openParen => "LParen"
  | .closeParen => "RParen"
  | .openBracket => "LBracket"
  | .closeBracket => "RBracket"
  | .at => "At"
  | .comma => "Comma"
  | .pipe => "Pipe"
  | .dot => "Dot"
  | .doubleDot => "DotDot"
  | .doubleColon => "DoubleColon"
  | .star => "Star"
  | .plus => "Plus"
  | .minus => "Minus"
  | .equal => "Eq"
  | .notEqual => "NotEq"
  | .less => "Lt"
  | .lessEqual => "LtEq"
  | .greater => "Gt"
  | .greaterEqual => "GtEq"
  | .name text => "Name(" ++ Text.quoted text ++ ")"
  | .literal text => "Literal(" ++ Text.quoted text ++ ")"
  | .number value => "Number(" ++ numberLayout.render value ++ ")"

end Token

end ScreenInspector.Expression
