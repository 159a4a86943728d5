/-
  ScreenInspector/Proofs/ParsedExpressions.lean
  =============================================
  **Which expressions the parser builds.**

  An expression that was parsed has a layer for each level of binding, at most one node for most of
  them, and complete expressions again where brackets stood.  The shapes say so level by level, each
  with the shape of the expressions between brackets as a parameter: `Shape.Nested` ties the knot as
  the parser does.  A shape also says what is never built: operators without operands, calls with
  the wrong number of arguments, filters that filter nothing, and attributes with conditions or with
  steps behind them.

  There is one lemma for each parser: its results have their shape, it closes what it opens, and
  levels do not suffice only where brackets are open (`Parses`).
-/
import ScreenInspector.Proofs.OpenBrackets
import ScreenInspector.Proofs.Outcomes

namespace ScreenInspector.Expression

/-! ### Shapes -/

namespace Shape

/-- Operands under one node, two or more of them, or a single one as it is. -/
inductive Joined (wrap : List Expr → Expr) (operand : Expr → Prop) : Expr → Prop
  | single {e : Expr} : operand e → Joined wrap operand e
  | several {operands : List Expr} : (∀ e ∈ operands, operand e) → 2 ≤ operands.length →
      Joined wrap operand (wrap operands)

/-- Operands under one node with the operators between them, or a single one as it is. -/
inductive Chained {β : Type} (wrap : Expr → List (β × Expr) → Expr) (operand : Expr → Prop) :
    Expr → Prop
  | single {e : Expr} : operand e → Chained wrap operand e
  | several {first : Expr} {rest : List (β × Expr)} : operand first →
      (∀ e ∈ rest.map Prod.snd, operand e) → rest ≠ [] → Chained wrap operand (wrap first rest)

/-- An operand under at most two signs. -/
inductive Signed (operand : Expr → Prop) : Expr → Prop
  | plain {e : Expr} : operand e → Signed operand e
  | once {e : Expr} : operand e → Signed operand (.negate e)
  | twice {e : Expr} : operand e → Signed operand (.negate (.negate e))

variable (nested : Expr → Prop)

/-- Predicates are complete expressions; an attribute has none and is no text. -/
structure IsStep (s : Step) : Prop where
  predicates : ∀ e ∈ s.predicates, nested e
  attributePlain : s.axis = .attribute → s.test ≠ .text ∧ s.predicates = []

/-- Only the last step may lead to attributes. -/
structure IsSteps (steps : List Step) : Prop where
  each : ∀ s ∈ steps, IsStep nested s
  attributeLast : ∀ s ∈ steps.dropLast, s.axis ≠ .attribute

inductive Primary : Expr → Prop
  | parenthesized {e : Expr} : nested e → Primary e
  | literal (text : String) : Primary (.literal text)
  | number (value : Float) : Primary (.number value)
  | call {f : Function} {args : List Expr} : (∀ e ∈ args, nested e) →
      f.accepts args.length = true → Primary (.call f args)

/-- A primary expression as it is, or one with something behind it. -/
inductive Filter : Expr → Prop
  | primary {e : Expr} : Primary nested e → Filter e
  | filter {primary : Expr} {predicates : List Expr} {steps : List Step} :
      Primary nested primary → (∀ e ∈ predicates, nested e) → IsSteps nested steps →
      predicates ≠ [] ∨ steps ≠ [] → Filter (.filter primary predicates steps)

inductive Path : Expr → Prop
  | path (absolute : Bool) {steps : List Step} : IsSteps nested steps → Path (.path absolute steps)
  | filter {e : Expr} : Filter nested e → Path e

def Union : Expr → Prop := Joined .union (Path nested)

def Sign : Expr → Prop := Signed (Union nested)

def Product : Expr → Prop := Chained .arithmetic (Sign nested)

def Sum : Expr → Prop := Chained .arithmetic (Product nested)

def Order : Expr → Prop := Chained .compare (Sum nested)

def Equality : Expr → Prop := Chained .compare (Order nested)

def Both : Expr → Prop := Joined .both (Equality nested)

def Either : Expr → Prop := Joined .either (Both nested)

/-- An expression in which at most so many levels are nested, its own included. -/
def Nested : Nat → Expr → Prop
  | 0 => fun _ => False
  | levels + 1 => Either (Nested levels)

theorem isStep_everywhere : IsStep nested Step.everywhere := by
  constructor
  · intro e he
    cases he
  · intro haxis
    cases haxis

theorem IsSteps.everywhere_cons {steps : List Step} (h : IsSteps nested steps) :
    IsSteps nested (Step.everywhere :: steps) := by
  constructor
  · intro s hs
    rcases List.mem_cons.mp hs with rfl | hs
    · exact isStep_everywhere nested
    · exact h.each s hs
  · intro s hs
    cases steps with
    | nil => cases hs
    | cons first rest =>
      rw [List.dropLast_cons_cons] at hs
      rcases List.mem_cons.mp hs with rfl | hs
      · intro haxis
        cases haxis
      · exact h.attributeLast s hs

theorem signed_negated {operand : Expr → Prop} (count : Nat) {e : Expr} (h : operand e) :
    Signed operand (Expr.negated count e) := by
  unfold Expr.negated
  split
  · exact .plain h
  · split
    · exact .once h
    · exact .twice h

end Shape

/-! ### Chains -/

section Chain

variable {α β : Type} {operator : Token → Option β} {operand : Parser α} {good : α → Prop}
  {levels : Nat}

/-- What joins operands opens and closes nothing. -/
def AreFlat (operator : Token → Option β) : Prop :=
  ∀ t o, operator t = some o → t.IsFlat

theorem areFlat_of_brackets (hparen : operator .openParen = none ∧ operator .closeParen = none)
    (hsquare : operator .openBracket = none ∧ operator .closeBracket = none) :
    AreFlat operator := by
  intro t o ho
  cases t with
  | openParen =>
    rw [hparen.1] at ho
    cases ho
  | closeParen =>
    rw [hparen.2] at ho
    cases ho
  | openBracket =>
    rw [hsquare.1] at ho
    cases ho
  | closeBracket =>
    rw [hsquare.2] at ho
    cases ho
  | _ => exact fun _ => rfl

theorem parses_chainTail (h : Parses good levels operand) (hflat : AreFlat operator) (fuel : Nat) :
    Parses (fun more : List (β × α) => ∀ x ∈ more, good x.2) levels
      (chainTail operator operand fuel) := by
  induction fuel with
  | zero => exact fun ts => ⟨by simp, Opened.refl ts⟩
  | succ fuel ih =>
    intro ts
    cases ts with
    | nil => exact ⟨by simp, Opened.refl []⟩
    | cons t ts =>
      rw [chainTail]
      cases ho : operator t with
      | none => exact ⟨by simp, Opened.refl _⟩
      | some o =>
        have hopen : Opened [] (t :: ts) ts := Opened.one (hflat t o ho)
        refine (h.after hopen).bind ?_
        rintro ⟨a, mid⟩ ⟨ha, hmid⟩
        refine (ih.after hmid).bind ?_
        rintro ⟨more, rest⟩ ⟨hmore, hrest⟩
        exact ⟨List.forall_mem_cons.mpr ⟨ha, hmore⟩, hrest⟩

theorem parses_chain (h : Parses good levels operand) (hflat : AreFlat operator) :
    Parses (fun c : α × List (β × α) => good c.1 ∧ ∀ x ∈ c.2, good x.2) levels
      (chain operator operand) := by
  intro ts
  refine (h ts).bind ?_
  rintro ⟨first, mid⟩ ⟨hfirst, hmid⟩
  refine ((parses_chainTail h hflat mid.length).after hmid).bind ?_
  rintro ⟨more, rest⟩ ⟨hmore, hrest⟩
  exact ⟨⟨hfirst, hmore⟩, hrest⟩

/-- Changing the results of a parser changes nothing about what it opens. -/
theorem Parses.map {γ : Type} {p : Parser α} {good' : γ → Prop} (h : Parses good levels p)
    {f : α → γ} (hf : ∀ a, good a → good' (f a)) :
    Parses good' levels fun ts => (p ts).map fun (a, rest) => (f a, rest) := by
  intro ts
  apply (h ts).map
  rintro ⟨a, rest⟩ ⟨ha, hrest⟩
  exact ⟨hf a ha, hrest⟩

end Chain

section Operators

variable {β : Type} {operator : Token → Option β} {operand : Parser Expr} {shape : Expr → Prop}
  {levels : Nat}

theorem parses_joined {operator : Token → Option Unit} {wrap : List Expr → Expr}
    (h : Parses shape levels operand) (hflat : AreFlat operator) :
    Parses (Shape.Joined wrap shape) levels fun ts =>
      (chain operator operand ts).map fun (c, rest) => (Expr.joined wrap c, rest) := by
  apply (parses_chain h hflat).map
  rintro ⟨first, rest⟩ ⟨hfirst, hrest⟩
  cases rest with
  | nil => exact .single hfirst
  | cons x more =>
    refine .several ?_ (by simp)
    intro e he
    rcases List.mem_cons.mp he with rfl | he
    · exact hfirst
    · obtain ⟨y, hy, rfl⟩ := List.mem_map.mp he
      exact hrest y hy

theorem parses_chained {wrap : Expr → List (β × Expr) → Expr} (h : Parses shape levels operand)
    (hflat : AreFlat operator) :
    Parses (Shape.Chained wrap shape) levels fun ts =>
      (chain operator operand ts).map fun (c, rest) => (Expr.chained wrap c, rest) := by
  apply (parses_chain h hflat).map
  rintro ⟨first, rest⟩ ⟨hfirst, hrest⟩
  cases rest with
  | nil => exact .single hfirst
  | cons x more =>
    refine .several hfirst ?_ (List.cons_ne_nil _ _)
    intro e he
    obtain ⟨y, hy, rfl⟩ := List.mem_map.mp he
    exact hrest y hy

end Operators

/-! ### Steps -/

section Nested

variable {nested : Parser Expr} {N : Expr → Prop} {levels : Nat}

theorem parses_predicatesLoop (h : Parses N levels nested) (fuel : Nat) :
    Parses (fun predicates => ∀ e ∈ predicates, N e) (levels + 1)
      (parsePredicatesLoop nested fuel) := by
  induction fuel with
  | zero => exact fun ts => ⟨by simp, Opened.refl ts⟩
  | succ fuel ih =>
    intro ts
    unfold parsePredicatesLoop
    split
    next _ fuel' ts' heq =>
      obtain rfl := Nat.succ.inj heq
      refine (h.after ((Opened.refl _).opening .square)).bind ?_
      rintro ⟨e, mid⟩ ⟨he, hmid⟩
      refine (yields_closing hmid).bind fun after hafter => ?_
      refine (ih.after hafter).bind ?_
      rintro ⟨more, rest⟩ ⟨hmore, hrest⟩
      exact ⟨List.forall_mem_cons.mpr ⟨he, hmore⟩, hrest⟩
    next => exact ⟨by simp, Opened.refl _⟩

theorem parses_predicates (h : Parses N levels nested) :
    Parses (fun predicates => ∀ e ∈ predicates, N e) (levels + 1) (parsePredicates nested) :=
  fun ts => parses_predicatesLoop h ts.length ts

theorem parses_test : Parses (fun _ => True) levels parseTest := by
  intro ts
  unfold parseTest
  split
  · exact ⟨trivial, Opened.one fun _ => rfl⟩
  next n rest =>
    have hopen : Opened [.paren] (.name n :: .openParen :: rest) rest :=
      (Opened.one fun _ => rfl).opening .paren
    split
    · exact (yields_closing hopen).map fun _ hafter => ⟨trivial, hafter⟩
    · split
      · exact (yields_closing hopen).map fun _ hafter => ⟨trivial, hafter⟩
      · exact yields_error (by simp)
  · exact ⟨trivial, Opened.one fun _ => rfl⟩
  · exact yields_error (by simp)

theorem parses_stepOn (h : Parses N levels nested) (axis : Axis) :
    Parses (Shape.IsStep N) (levels + 1) (parseStepOn nested axis) := by
  intro ts
  refine (parses_test ts).bind ?_
  rintro ⟨test, mid⟩ ⟨-, hmid⟩
  refine ((parses_predicates h).after hmid).bind ?_
  rintro ⟨predicates, rest⟩ ⟨hpredicates, hrest⟩
  dsimp only
  split
  · exact yields_error (by simp)
  next hplain =>
    refine ⟨⟨hpredicates, fun haxis => ?_⟩, hrest⟩
    rw [not_and, not_or, Bool.not_eq_false, List.isEmpty_iff] at hplain
    exact hplain haxis

theorem parses_step (h : Parses N levels nested) :
    Parses (Shape.IsStep N) (levels + 1) (parseStep nested) := by
  intro ts
  unfold parseStep
  split
  · exact ⟨⟨by simp [Step.predicates], by simp [Step.axis]⟩, Opened.one fun _ => rfl⟩
  · exact ⟨⟨by simp [Step.predicates], by simp [Step.axis]⟩, Opened.one fun _ => rfl⟩
  · exact (parses_stepOn h .attribute).after (Opened.one fun _ => rfl)
  · split
    next axis _ =>
      exact (parses_stepOn h axis).after ((Opened.one fun _ => rfl).flat fun _ => rfl)
    next => exact yields_error (by simp)
  · exact parses_stepOn h .child _

theorem parses_steps (h : Parses N levels nested) :
    Parses (Shape.IsSteps N) (levels + 1) (parseSteps nested) := by
  intro ts
  have hflat : AreFlat Token.separator? := areFlat_of_brackets ⟨rfl, rfl⟩ ⟨rfl, rfl⟩
  refine (parses_chain (parses_step h) hflat ts).bind ?_
  rintro ⟨⟨first, more⟩, rest⟩ ⟨⟨hfirst, hmore⟩, hrest⟩
  dsimp only
  split
  · exact yields_error (by simp)
  next hlast =>
    refine ⟨⟨?_, ?_⟩, hrest⟩
    · intro s hs
      rcases List.mem_cons.mp hs with rfl | hs
      · exact hfirst
      · obtain ⟨⟨double, s'⟩, hmem, hs⟩ := List.mem_flatMap.mp hs
        have hstep : Shape.IsStep N s' := hmore _ hmem
        cases double with
        | false =>
          obtain rfl := List.mem_singleton.mp hs
          exact hstep
        | true =>
          rcases List.mem_cons.mp hs with rfl | hs
          · exact Shape.isStep_everywhere N
          · obtain rfl := List.mem_singleton.mp hs
            exact hstep
    · intro s hs haxis
      apply hlast
      exact List.any_eq_true.mpr ⟨s, hs, beq_iff_eq.mpr haxis⟩

/-! ### Primary expressions -/

/-- A function's arguments are read behind its parenthesis, which they close. -/
theorem yields_argumentsLoop (h : Parses N levels nested) (fuel : Nat) {start ts : List Token}
    (hopen : Opened [.paren] start ts) :
    Yields start (levels + 1) (fun r => (∀ e ∈ r.1, N e) ∧ Opened [] start r.2)
      (parseArgumentsLoop nested fuel ts) := by
  induction fuel generalizing ts with
  | zero => exact yields_error (by simp)
  | succ fuel ih =>
    rw [parseArgumentsLoop]
    refine (h.after hopen).bind ?_
    rintro ⟨e, mid⟩ ⟨he, hmid⟩
    dsimp only
    split
    next after =>
      refine (ih (hmid.flat fun _ => rfl)).bind ?_
      rintro ⟨more, rest⟩ ⟨hmore, hrest⟩
      exact ⟨List.forall_mem_cons.mpr ⟨he, hmore⟩, hrest⟩
    next =>
      refine (yields_closing hmid).bind fun rest hrest => ?_
      exact ⟨List.forall_mem_singleton.mpr he, hrest⟩

theorem yields_call (h : Parses N levels nested) (name : String) {start ts : List Token}
    (hopen : Opened [.paren] start ts) :
    Yields start (levels + 1) (fun r => Shape.Primary N r.1 ∧ Opened [] start r.2)
      (parseCall nested name ts) := by
  unfold parseCall
  split
  · exact yields_error (by simp)
  next f _ =>
    have harguments : Yields start (levels + 1)
        (fun r => (∀ e ∈ r.1, N e) ∧ Opened [] start r.2) (parseArguments nested ts) := by
      unfold parseArguments
      split
      · exact ⟨by simp, hopen.closing⟩
      · exact yields_argumentsLoop h _ hopen
    refine harguments.bind ?_
    rintro ⟨args, rest⟩ ⟨hargs, hrest⟩
    dsimp only
    split
    next haccepts => exact ⟨.call hargs haccepts, hrest⟩
    next => exact yields_error (by simp)

theorem parses_primary (h : Parses N levels nested) :
    Parses (Shape.Primary N) (levels + 1) (parsePrimary nested) := by
  intro ts
  unfold parsePrimary
  split
  · refine (h.after ((Opened.refl _).opening .paren)).bind ?_
    rintro ⟨e, mid⟩ ⟨he, hmid⟩
    refine (yields_closing hmid).bind fun rest hrest => ?_
    exact ⟨.parenthesized he, hrest⟩
  · exact ⟨.literal _, Opened.one fun _ => rfl⟩
  · exact ⟨.number _, Opened.one fun _ => rfl⟩
  · exact yields_call h _ ((Opened.one fun _ => rfl).opening .paren)
  · exact yields_error (by simp)
  · exact yields_error (by simp)

/-! ### Levels of binding -/

theorem parses_stepsAfter (h : Parses N levels nested) :
    Parses (Shape.IsSteps N) (levels + 1) (parseStepsAfter nested) := by
  intro ts
  unfold parseStepsAfter
  split
  · exact (parses_steps h).after (Opened.one fun _ => rfl)
  · apply ((parses_steps h).after (Opened.one fun _ => rfl)).map
    rintro ⟨steps, rest⟩ ⟨hsteps, hrest⟩
    exact ⟨hsteps.everywhere_cons, hrest⟩
  · exact ⟨⟨by simp, by simp⟩, Opened.refl _⟩

theorem parses_filter (h : Parses N levels nested) :
    Parses (Shape.Filter N) (levels + 1) (parseFilter nested) := by
  intro ts
  refine (parses_primary h ts).bind ?_
  rintro ⟨primary, mid⟩ ⟨hprimary, hmid⟩
  refine ((parses_predicates h).after hmid).bind ?_
  rintro ⟨predicates, mid'⟩ ⟨hpredicates, hmid'⟩
  refine ((parses_stepsAfter h).after hmid').bind ?_
  rintro ⟨steps, rest⟩ ⟨hsteps, hrest⟩
  dsimp only
  split
  next => exact ⟨.primary hprimary, hrest⟩
  next hsome =>
    rw [Bool.and_eq_true, List.isEmpty_iff, List.isEmpty_iff, Decidable.not_and_iff_not_or_not]
      at hsome
    exact ⟨.filter hprimary hpredicates hsteps hsome, hrest⟩

theorem parses_path (h : Parses N levels nested) :
    Parses (Shape.Path N) (levels + 1) (parsePath nested) := by
  intro ts
  unfold parsePath
  split
  · split
    · apply ((parses_steps h).after (Opened.one fun _ => rfl)).map
      rintro ⟨steps, rest⟩ ⟨hsteps, hrest⟩
      exact ⟨.path true hsteps, hrest⟩
    · exact ⟨.path true ⟨by simp, by simp⟩, Opened.one fun _ => rfl⟩
  · apply ((parses_steps h).after (Opened.one fun _ => rfl)).map
    rintro ⟨steps, rest⟩ ⟨hsteps, hrest⟩
    exact ⟨.path true hsteps.everywhere_cons, hrest⟩
  · split
    · apply (parses_steps h _).map
      rintro ⟨steps, rest⟩ ⟨hsteps, hrest⟩
      exact ⟨.path false hsteps, hrest⟩
    · apply (parses_filter h _).mono
      rintro ⟨e, rest⟩ ⟨he, hrest⟩
      exact ⟨.filter he, hrest⟩

theorem splitMinus_opened (ts : List Token) : Opened [] ts (splitMinus ts).2 := by
  induction ts with
  | nil => exact Opened.refl []
  | cons t ts ih =>
    unfold splitMinus
    split
    next rest heq =>
      obtain ⟨rfl, rfl⟩ := List.cons.inj heq
      exact (Opened.one fun _ => rfl).trans ih
    next => exact Opened.refl _

theorem parses_sign (h : Parses (Shape.Union N) (levels + 1) (parseUnion nested)) :
    Parses (Shape.Sign N) (levels + 1) (parseSign nested) := by
  intro ts
  apply (h.after (splitMinus_opened ts)).map
  rintro ⟨e, rest⟩ ⟨he, hrest⟩
  exact ⟨Shape.signed_negated (splitMinus ts).1 he, hrest⟩

end Nested

/-- A level of nesting, from the level of what stands between brackets in it. -/
theorem parses_either {nested : Parser Expr} {N : Expr → Prop} {levels : Nat}
    (h : Parses N levels nested) : Parses (Shape.Either N) (levels + 1) (parseEither nested) := by
  have hunion : Parses (Shape.Union N) (levels + 1) (parseUnion nested) :=
    parses_joined (parses_path h) (areFlat_of_brackets ⟨rfl, rfl⟩ ⟨rfl, rfl⟩)
  have hproduct : Parses (Shape.Product N) (levels + 1) (parseProduct nested) :=
    parses_chained (parses_sign hunion) (areFlat_of_brackets ⟨rfl, rfl⟩ ⟨rfl, rfl⟩)
  have hsum : Parses (Shape.Sum N) (levels + 1) (parseSum nested) :=
    parses_chained hproduct (areFlat_of_brackets ⟨rfl, rfl⟩ ⟨rfl, rfl⟩)
  have horder : Parses (Shape.Order N) (levels + 1) (parseOrder nested) :=
    parses_chained hsum (areFlat_of_brackets ⟨rfl, rfl⟩ ⟨rfl, rfl⟩)
  have hequality : Parses (Shape.Equality N) (levels + 1) (parseEquality nested) :=
    parses_chained horder (areFlat_of_brackets ⟨rfl, rfl⟩ ⟨rfl, rfl⟩)
  have hboth : Parses (Shape.Both N) (levels + 1) (parseBoth nested) :=
    parses_joined hequality (areFlat_of_brackets ⟨rfl, rfl⟩ ⟨rfl, rfl⟩)
  exact parses_joined hboth (areFlat_of_brackets ⟨rfl, rfl⟩ ⟨rfl, rfl⟩)

/-- **Parsed expressions have their shape**, and levels do not suffice only where as many brackets
are open. -/
theorem parses_parseExpr (levels : Nat) :
    Parses (Shape.Nested levels) levels (parseExpr levels) := by
  induction levels with
  | zero =>
    intro ts _
    exact isDeep_zero ts
  | succ levels ih => exact parses_either ih

/-- The tokens of an expression make up one in its shape. -/
theorem yields_ofTokens (ts : List Token) :
    Yields ts depthLimit (Shape.Nested depthLimit) (Expr.ofTokens ts) := by
  rw [Expr.ofTokens]
  split
  · exact yields_error (by simp)
  · refine (parses_parseExpr depthLimit ts).bind ?_
    rintro ⟨e, rest⟩ ⟨he, -⟩
    cases rest with
    | nil => exact he
    | cons t more => exact yields_error (by simp)

/-- An expression that a text writes has the shape of one. -/
theorem nested_of_parse {text : String} {e : Expr} (h : Expr.parse text = .ok e) :
    Shape.Nested depthLimit e := by
  obtain ⟨ts, -, htokens⟩ := bind_eq_ok_iff.mp h
  have hyields := yields_ofTokens ts
  rwa [htokens] at hyields

end ScreenInspector.Expression
