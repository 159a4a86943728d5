/-
  ScreenInspector/Proofs/OpenBrackets.lean
  ========================================
  **Parentheses and brackets that are open** while tokens are read.

  Reading tokens keeps a stack of what has been opened and not closed yet (`openAfter`).  Every
  parser of the grammar leaves the stack as it finds it: what it opens it closes, or it fails.  So
  where parsers run one inside another, the stack says how far they have come (`Opened`), and the
  fault of nesting too deep comes up only where the stack is high (`IsDeep`).

  `Yields` puts the two together as a condition on what comes of reading on, with a rule for steps
  one after the other (`Yields.bind`), and `Parses` is the same for a parser wherever it starts
  (`Parses.after`).
-/
import ScreenInspector.Expression.Grammar

namespace ScreenInspector.Expression

/-! ### The stack -/

/-- What can be opened and closed. -/
inductive Bracket where
  | paren
  | square
deriving DecidableEq, Repr

/-- The token that opens a bracket. -/
def Bracket.opening : Bracket → Token
  | .paren => .openParen
  | .square => .openBracket

/-- The token that closes a bracket. -/
def Bracket.closing : Bracket → Token
  | .paren => .closeParen
  | .square => .closeBracket

theorem Bracket.closing_ne_number (b : Bracket) (value : Float) : b.closing ≠ .number value := by
  cases b with
  | paren => exact Token.noConfusion
  | square => exact Token.noConfusion

/-- The stack after a token, the innermost bracket first.  What closes no open bracket of its kind
leaves the stack alone. -/
def Token.onStack (stack : List Bracket) : Token → List Bracket
  | .openParen => .paren :: stack
  | .openBracket => .square :: stack
  | .closeParen => if stack.head? = some .paren then stack.tail else stack
  | .closeBracket => if stack.head? = some .square then stack.tail else stack
  | _ => stack

/-- The brackets that are open after tokens. -/
def openAfter (stack : List Bracket) (ts : List Token) : List Bracket :=
  ts.foldl Token.onStack stack

/-- Tokens that leave every stack alone. -/
def Token.IsFlat (t : Token) : Prop :=
  ∀ stack, t.onStack stack = stack

/-- From where reading started, some brackets have been opened and not closed. -/
def Opened (brackets : List Bracket) (start ts : List Token) : Prop :=
  ∃ read, start = read ++ ts ∧ ∀ stack, openAfter stack read = brackets ++ stack

/-- At least so many brackets are open at once somewhere in some tokens. -/
def IsDeep (levels : Nat) (start : List Token) : Prop :=
  ∃ read rest, start = read ++ rest ∧ ∀ stack, stack.length + levels ≤ (openAfter stack read).length

theorem openAfter_append (stack : List Bracket) (read more : List Token) :
    openAfter stack (read ++ more) = openAfter (openAfter stack read) more :=
  List.foldl_append

namespace Opened

variable {brackets more : List Bracket} {start ts rest : List Token} {t : Token}

theorem refl (ts : List Token) : Opened [] ts ts :=
  ⟨[], rfl, fun _ => rfl⟩

theorem trans (h : Opened brackets start ts) (hmore : Opened more ts rest) :
    Opened (more ++ brackets) start rest := by
  obtain ⟨read, rfl, hread⟩ := h
  obtain ⟨read', rfl, hread'⟩ := hmore
  refine ⟨read ++ read', (List.append_assoc _ _ _).symm, fun stack => ?_⟩
  rw [openAfter_append, hread, hread', List.append_assoc]

/-- One token more is read. -/
theorem next (h : Opened brackets start (t :: ts)) (ht : ∀ stack, t.onStack (brackets ++ stack) =
    more ++ stack) : Opened more start ts := by
  obtain ⟨read, rfl, hread⟩ := h
  refine ⟨read ++ [t], by rw [List.append_assoc, List.singleton_append], fun stack => ?_⟩
  rw [openAfter_append, hread, ← ht]
  rfl

theorem flat (h : Opened brackets start (t :: ts)) (ht : t.IsFlat) : Opened brackets start ts :=
  h.next fun stack => ht (brackets ++ stack)

theorem one (ht : t.IsFlat) : Opened [] (t :: ts) ts :=
  (refl _).flat ht

theorem opening (b : Bracket) (h : Opened brackets start (b.opening :: ts)) :
    Opened (b :: brackets) start ts := by
  apply h.next
  intro stack
  cases b with
  | paren => rfl
  | square => rfl

theorem closing {b : Bracket} (h : Opened (b :: brackets) start (b.closing :: ts)) :
    Opened brackets start ts := by
  apply h.next
  intro stack
  cases b with
  | paren => rfl
  | square => rfl

/-- What is deep behind open brackets is so much deeper from where reading started. -/
theorem isDeep {levels : Nat} (h : Opened brackets start ts) (hdeep : IsDeep levels ts) :
    IsDeep (levels + brackets.length) start := by
  obtain ⟨read, rfl, hread⟩ := h
  obtain ⟨read', rest, rfl, hread'⟩ := hdeep
  refine ⟨read ++ read', rest, (List.append_assoc _ _ _).symm, fun stack => ?_⟩
  have hheight := hread' (brackets ++ stack)
  rw [openAfter_append, hread]
  rw [List.length_append] at hheight
  omega

end Opened

theorem isDeep_zero (ts : List Token) : IsDeep 0 ts :=
  ⟨[], ts, rfl, fun _ => Nat.le_refl _⟩

/-! ### What comes of reading -/

/-- Something comes of reading on that meets a condition, or a fault; and the fault that levels do
not suffice comes only where so many brackets are open. -/
def Yields {γ : Type} (start : List Token) (levels : Nat) (good : γ → Prop) :
    Except Fault γ → Prop
  | .ok result => good result
  | .error fault => fault = .tooDeep → IsDeep levels start

/-- Wherever a parser starts, its results meet a condition and it closes what it opens. -/
def Parses {α : Type} (good : α → Prop) (levels : Nat) (p : Parser α) : Prop :=
  ∀ ts, Yields ts levels (fun r => good r.1 ∧ Opened [] ts r.2) (p ts)

section Yields

variable {γ δ : Type} {start ts : List Token} {levels : Nat} {good : γ → Prop} {good' : δ → Prop}
  {x : Except Fault γ}

theorem yields_error {fault : Fault} (h : fault ≠ .tooDeep) :
    Yields start levels good (.error fault) :=
  fun heq => absurd heq h

/-- **Steps one after the other**: the first, and what follows each result it may have. -/
theorem Yields.bind {f : γ → Except Fault δ} (h : Yields start levels good x)
    (hf : ∀ result, good result → Yields start levels good' (f result)) :
    Yields start levels good' (x >>= f) := by
  cases x with
  | error fault => exact h
  | ok result => exact hf result h

theorem Yields.map {f : γ → δ} (h : Yields start levels good x)
    (hf : ∀ result, good result → good' (f result)) : Yields start levels good' (x.map f) := by
  cases x with
  | error fault => exact h
  | ok result => exact hf result h

theorem Yields.mono {good' : γ → Prop} (h : Yields start levels good x)
    (hgood : ∀ result, good result → good' result) : Yields start levels good' x := by
  cases x with
  | error fault => exact h
  | ok result => exact hgood result h

/-- A parser that starts behind open brackets leaves them open. -/
theorem Parses.after {α : Type} {good : α → Prop} {p : Parser α} {brackets : List Bracket}
    (h : Parses good levels p) (hopen : Opened brackets start ts) :
    Yields start (levels + brackets.length) (fun r => good r.1 ∧ Opened brackets start r.2)
      (p ts) := by
  have hts := h ts
  cases hp : p ts with
  | error fault =>
    rw [hp] at hts
    exact fun heq => hopen.isDeep (hts heq)
  | ok r =>
    rw [hp] at hts
    exact ⟨hts.1, hopen.trans hts.2⟩

/-- Where a bracket is open, the token that closes it is expected. -/
theorem yields_closing {b : Bracket} {brackets : List Bracket}
    (hopen : Opened (b :: brackets) start ts) :
    Yields start levels (Opened brackets start) (expect b.closing ts) := by
  cases ts with
  | nil => exact yields_error (by simp)
  | cons t rest =>
    rw [expect]
    split
    next heq =>
      obtain rfl := (Token.beq_iff_eq_of_ne_number b.closing_ne_number).mp heq
      exact hopen.closing
    next => exact yields_error (by simp)

end Yields

end ScreenInspector.Expression
