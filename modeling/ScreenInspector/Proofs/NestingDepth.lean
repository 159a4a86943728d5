/-
  ScreenInspector/Proofs/NestingDepth.lean
  ========================================
  **How deep parsed expressions are nested**, whatever their length.

  The parts of an expression are its operands, arguments and predicates, and its depth is the length
  of the longest way down along parts (`Expr.IsWithin`).  Each layer of nodes adds one node to it, so
  the levels of binding between two expressions in brackets add eleven together (`Layers.isWithin`).
  Chains of operators and rows of signs are one layer or two, so they do not count by their length.

  Levels are bounded, and where they do not suffice that many brackets are open: no other part of a
  parser, and no cutting into tokens, has this fault (`depth_is_bounded`).
-/
import ScreenInspector.Proofs.ExpressionLayers
import ScreenInspector.Proofs.GroupedExpressions
import ScreenInspector.Proofs.NeededParts
import Mathlib.Data.List.Chain

namespace ScreenInspector.Expression

open ScreenInspector.Markup (Document)

/-! ### Depth -/

/-- Ways down along parts have at most so many nodes, the expression itself among them. -/
def Expr.IsWithin : Nat → Expr → Prop
  | 0, _ => False
  | n + 1, e => ∀ part ∈ e.parts, part.IsWithin n

variable {n m : Nat} {e : Expr} {N : Expr → Prop}

theorem Expr.IsWithin.mono (h : e.IsWithin n) (hle : n ≤ m) : e.IsWithin m := by
  induction m generalizing n e with
  | zero =>
    obtain rfl := Nat.le_zero.mp hle
    exact h
  | succ m ih =>
    cases n with
    | zero => exact h.elim
    | succ n => exact fun part hpart => ih (h part hpart) (Nat.le_of_succ_le_succ hle)

/-- A way down is a list of expressions, each a part of the one before it. -/
theorem Expr.IsWithin.length_le (h : e.IsWithin n) {below : List Expr}
    (hdown : (e :: below).IsChain fun e part => part ∈ e.parts) : (e :: below).length ≤ n := by
  induction n generalizing e below with
  | zero => exact h.elim
  | succ n ih =>
    cases below with
    | nil => exact Nat.succ_le_succ (Nat.zero_le n)
    | cons part below =>
      rw [List.isChain_cons_cons] at hdown
      exact Nat.succ_le_succ (ih (h part hdown.1) hdown.2)

/-! ### Layers -/

/-- A layer is one node deeper at most. -/
theorem Layers.isWithin {layers : Nat} (h : ∀ e, N e → e.IsWithin n) (he : Layers N layers e) :
    e.IsWithin (n + layers) := by
  induction layers generalizing e with
  | zero => exact h e he
  | succ layers ih =>
    rcases he with he | ⟨-, hparts⟩
    · exact (ih he).mono (Nat.le_succ _)
    · exact fun part hpart => ih (hparts part hpart)

theorem isWithin_of_nested (levels : Nat) (he : Shape.Nested levels e) :
    e.IsWithin (11 * levels) := by
  induction levels generalizing e with
  | zero => exact he.elim
  | succ levels ih => exact (layers_of_either he).isWithin fun _ => ih

/-- As many open parentheses as there are levels are one too many, whatever follows them. -/
theorem parseExpr_openParens (levels : Nat) (rest : List Token) :
    parseExpr levels (List.replicate levels .openParen ++ rest) = .error .tooDeep := by
  induction levels with
  | zero => rfl
  | succ levels ih => exact parseEither_grouped_error ih

/-! ### Texts -/

theorem bind_ne_error {γ δ : Type} {fault : Fault} {x : Except Fault γ} {f : γ → Except Fault δ}
    (hx : x ≠ .error fault) (hf : ∀ result, f result ≠ .error fault) :
    (x >>= f) ≠ .error fault := by
  cases x with
  | error fault' => exact fun h => hx (congrArg _ (Except.error.inj h))
  | ok result => exact hf result

/-- Cutting a text into tokens knows nothing of levels. -/
theorem next_ne_tooDeep (position : Nat) (cs : List Char) :
    Token.next position cs ≠ .error .tooDeep := by
  have hnumber : ∀ cs, lexNumber cs ≠ .error .tooDeep := by
    intro cs
    rw [lexNumber]
    split
    · simp
    · simp
  have hword : ∀ c cs, lexWord position c cs ≠ .error .tooDeep := by
    intro c cs
    rw [lexWord, lexLiteral]
    split
    · split
      · simp
      · simp
    · split
      · exact hnumber _
      · split
        · simp
        · simp
  unfold Token.next
  split
  -- Most tokens are told by their characters alone.
  all_goals try (simp; done)
  next =>
    split
    · exact hnumber _
    · simp
  next => exact hword _ _

theorem scanFrom_ne_tooDeep (fuel position : Nat) (cs : List Char) :
    Token.scanFrom fuel position cs ≠ .error .tooDeep := by
  induction fuel generalizing position cs with
  | zero => cases cs <;> simp [Token.scanFrom]
  | succ fuel ih =>
    cases cs with
    | nil => simp [Token.scanFrom]
    | cons c cs =>
      rw [Token.scanFrom]
      split
      · exact ih _ _
      · refine bind_ne_error (next_ne_tooDeep _ _) fun result => ?_
        exact bind_ne_error (ih _ _) fun tokens => by simp

/-- **Depth is bounded by levels, not by length.**  In every expression that a text writes, a way
down along parts has at most eleven nodes for each of the levels that may be nested, and so has
every way that an evaluation takes, over any document and from any node.  And a text is refused for
nesting too deep only if somewhere in it, after some of its tokens, as many parentheses and brackets
are open. -/
theorem depth_is_bounded (text : String) :
    (∀ e, Expr.parse text = .ok e →
      (∀ below, (e :: below).IsChain (fun e part => part ∈ e.parts) →
        (e :: below).length ≤ 11 * depthLimit) ∧
      ∀ (d : Document) (c : Context) (below : List (Expr × Context)),
        ((e, c) :: below).IsChain (Needs d) → ((e, c) :: below).length ≤ 11 * depthLimit) ∧
    (Expr.parse text = .error .tooDeep → ∃ ts read rest, Token.scan text = .ok ts ∧
      ts = read ++ rest ∧ depthLimit ≤ (openAfter [] read).length) := by
  constructor
  · intro e hparse
    obtain ⟨ts, -, htokens⟩ := bind_eq_ok_iff.mp hparse
    have hshape : Shape.Nested depthLimit e := by
      have hyields := yields_ofTokens ts
      rwa [htokens] at hyields
    have hwithin := isWithin_of_nested depthLimit hshape
    refine ⟨fun below hdown => hwithin.length_le hdown, fun d c below hdown => ?_⟩
    have hparts : (e :: below.map Prod.fst).IsChain fun e part => part ∈ e.parts :=
      List.isChain_cons_map_of_isChain_cons Prod.fst (fun _ _ hneeds => hneeds.mem_parts) hdown
    have hlength := hwithin.length_le hparts
    rwa [List.length_cons, List.length_map, ← List.length_cons] at hlength
  · intro hparse
    rw [Expr.parse] at hparse
    cases hscan : Token.scan text with
    | error fault =>
      rw [hscan, error_bind] at hparse
      obtain rfl := Except.error.inj hparse
      exact absurd hscan (scanFrom_ne_tooDeep text.toList.length 0 text.toList)
    | ok ts =>
      rw [hscan, ok_bind] at hparse
      have hyields := yields_ofTokens ts
      rw [hparse] at hyields
      obtain ⟨read, rest, hts, hread⟩ := hyields rfl
      have hheight := hread []
      rw [List.length_nil, Nat.zero_add] at hheight
      exact ⟨ts, read, rest, rfl, hts, hheight⟩

end ScreenInspector.Expression
