/-
  ScreenInspector/Proofs/LocatorSyntax.lean
  =========================================
  **Every locator is a valid expression**, whatever the kind and the attributes of the element.

  The identity of an element (`identity?`) is the first of its telling attributes with a value that
  can be written as a literal.  The base expression is a path of two slashes and the tag, with the
  comparison of the identity attribute as its only condition (`parse_baseExpression`); an indexed
  expression is the base expression in parentheses with a number as its predicate
  (`parse_indexed_scaled`), and below the limit of exact numbers that is the position
  (`parse_indexed`).
-/
import ScreenInspector.Expression.Grammar
import ScreenInspector.Locator.Synthesis
import ScreenInspector.Proofs.ExpressionText

namespace ScreenInspector.Locator

open Expression (Expr Token Step Scans forall_mem_head?)

/-! ### Identities -/

/-- A value that has at most one kind of quotes. -/
def isWritable (value : String) : Bool :=
  !(value.toList.contains '\x27' && value.toList.contains '\x22')

/-- An attribute of an element with its value, if that says something and can be written. -/
def telling? (e : Element) (name : String) : Option (String × String) :=
  ((e.meaningful? name).filter isWritable).map fun value => (name, value)

/-- The identity of an element: the first of its telling attributes. -/
def identity? (e : Element) : Option (String × String) :=
  identityAttributes.findSome? (telling? e)

/-- Whether an element has the tag of another one and, if that has an identity, its identity. -/
def sharesIdentity (e other : Element) : Bool :=
  other.tag == e.tag && (identity? e).all fun (name, value) => other.attribute? name == some value

/-- The quote that a value is written in: an apostrophe unless the value holds one. -/
def quoteOf (value : String) : Char :=
  if value.toList.contains '\x27' then '\x22' else '\x27'

theorem quoteOf_eq (value : String) : quoteOf value = '\x22' ∨ quoteOf value = '\x27' := by
  rw [quoteOf]
  split
  · exact Or.inl rfl
  · exact Or.inr rfl

theorem quoteOf_not_mem {value : String} (h : isWritable value = true) :
    quoteOf value ∉ value.toList := by
  rw [quoteOf]
  simp only [isWritable, Bool.not_eq_true', Bool.and_eq_false_iff] at h
  split
  next hcontains =>
    rcases h with h | h
    · rw [hcontains] at h
      exact Bool.noConfusion h
    · simpa using h
  next hcontains => simpa using hcontains

theorem literal?_eq (value : String) :
    literal? value.toList =
      if isWritable value then some (quoteOf value :: (value.toList ++ [quoteOf value]))
      else none := by
  cases hsingle : value.toList.contains '\x27' <;> cases hdouble : value.toList.contains '\x22' <;>
  · simp only [literal?, isWritable, quoteOf, hsingle, hdouble]
    rfl

/-- How the comparison with an identity attribute is written. -/
def conditionText (identity : String × String) : List Char :=
  '[' :: '@' :: (identity.1.toList ++ '=' :: quoteOf identity.2 ::
    (identity.2.toList ++ [quoteOf identity.2, ']']))

theorem condition?_eq (e : Element) (name : String) :
    condition? e name = (telling? e name).map fun found => String.ofList (conditionText found) := by
  rw [condition?, telling?]
  cases e.meaningful? name with
  | none => rfl
  | some value =>
    simp only [Option.bind_eq_bind, Option.bind_some, literal?_eq, Option.filter_some]
    by_cases hwritable : isWritable value = true
    · rw [if_pos hwritable, if_pos hwritable]
      apply congrArg some
      apply String.toList_injective
      simp [conditionText]
    · rw [if_neg hwritable, if_neg hwritable]
      rfl

theorem baseExpression_toList (e : Element) :
    (baseExpression e).toList =
      '/' :: '/' :: (tagChars e.kind.toList ++ ((identity? e).map conditionText).getD []) := by
  have hcondition : identityAttributes.findSome? (condition? e) =
      (identity? e).map fun found => String.ofList (conditionText found) := by
    rw [identity?, List.map_findSome?]
    congr 1
    funext name
    exact condition?_eq e name
  rw [baseExpression, seedExpression, hcondition, Element.tag, tagName]
  cases identity? e with
  | none => simp
  | some found => simp

theorem telling?_eq_some_iff {e : Element} {name : String} {found : String × String} :
    telling? e name = some found ↔
      found.1 = name ∧ e.meaningful? name = some found.2 ∧ isWritable found.2 = true := by
  obtain ⟨first, value⟩ := found
  simp only [telling?, Option.map_eq_some_iff, Option.filter_eq_some_iff, Prod.mk.injEq]
  constructor
  · rintro ⟨v, h, rfl, rfl⟩
    exact ⟨rfl, h⟩
  · rintro ⟨rfl, h⟩
    exact ⟨value, h, rfl, rfl⟩

theorem identity?_spec {e : Element} {name value : String} (h : identity? e = some (name, value)) :
    name ∈ identityAttributes ∧ e.meaningful? name = some value ∧ isWritable value = true := by
  obtain ⟨found, hfound, htelling⟩ := List.exists_of_findSome?_eq_some h
  obtain ⟨rfl, hvalue⟩ := telling?_eq_some_iff.mp htelling
  exact ⟨hfound, hvalue⟩

theorem isTag_identityAttribute {name : String} (h : name ∈ identityAttributes) :
    IsTag name.toList := by
  simp only [identityAttributes, List.mem_cons, List.not_mem_nil, or_false] at h
  rcases h with rfl | rfl | rfl
  · exact ⟨by decide, List.all_eq_true.mp (by decide)⟩
  · exact ⟨by decide, List.all_eq_true.mp (by decide)⟩
  · exact ⟨by decide, List.all_eq_true.mp (by decide)⟩

theorem sharesIdentity_self (e : Element) : sharesIdentity e e = true := by
  rw [sharesIdentity, beq_self_eq_true, Bool.true_and]
  cases hidentity : identity? e with
  | none => rfl
  | some found =>
    obtain ⟨name, value⟩ := found
    obtain ⟨-, hmeaningful, -⟩ := identity?_spec hidentity
    rw [Element.meaningful?, Option.filter_eq_some_iff] at hmeaningful
    simp [hmeaningful.1]

/-! ### Tokens -/

def conditionTokens (identity : String × String) : List Token :=
  [.openBracket, .at, .name identity.1, .equal, .literal identity.2, .closeBracket]

def baseTokens (e : Element) : List Token :=
  .doubleSlash :: .name e.tag :: ((identity? e).map conditionTokens).getD []

theorem scans_conditionText {name value : String} (hname : IsTag name.toList)
    (hvalue : isWritable value = true) {rest : List Char} {ts : List Token}
    (hrest : Scans rest ts) :
    Scans (conditionText (name, value) ++ rest) (conditionTokens (name, value) ++ ts) := by
  have hclose : Scans (']' :: rest) (.closeBracket :: ts) :=
    Scans.cons (by decide) (fun _ => rfl) (Nat.le_refl _) hrest
  have hliteral := Scans.literal (quoteOf_eq value) (quoteOf_not_mem hvalue) hclose
  have hequal := Scans.cons (c := '=') (by decide) (fun _ => rfl) (Nat.le_refl _) hliteral
  have hattribute := Scans.name hname (forall_mem_head? (by decide)) hequal
  have hat := Scans.cons (c := '@') (by decide) (fun _ => rfl) (Nat.le_refl _) hattribute
  have hopen := Scans.cons (c := '[') (by decide) (fun _ => rfl) (Nat.le_refl _) hat
  simpa [conditionText, conditionTokens] using hopen

/-- A base expression is cut into its tokens before anything that does not prolong a name. -/
theorem scans_baseExpression (e : Element) {rest : List Char} {ts : List Token}
    (hend : ∀ d ∈ rest.head?, Expression.isNameChar d = false) (hrest : Scans rest ts) :
    Scans ((baseExpression e).toList ++ rest) (baseTokens e ++ ts) := by
  have htag := isTag_tagChars e.kind.toList
  rw [baseExpression_toList, baseTokens]
  have hcondition : Scans (((identity? e).map conditionText).getD [] ++ rest)
      (((identity? e).map conditionTokens).getD [] ++ ts) ∧
      ∀ d ∈ (((identity? e).map conditionText).getD [] ++ rest).head?,
        Expression.isNameChar d = false := by
    cases hidentity : identity? e with
    | none => exact ⟨hrest, hend⟩
    | some found =>
      obtain ⟨name, value⟩ := found
      obtain ⟨hname, -, hvalue⟩ := identity?_spec hidentity
      constructor
      · exact scans_conditionText (isTag_identityAttribute hname) hvalue hrest
      · exact forall_mem_head? (by decide)
  have hname := Scans.name htag hcondition.2 hcondition.1
  have hslashes : Scans ('/' :: '/' :: (tagChars e.kind.toList ++
      (((identity? e).map conditionText).getD [] ++ rest))) (.doubleSlash :: _) :=
    Scans.cons (by decide) (fun _ => rfl) (Nat.le_succ _) hname
  simpa [Element.tag, tagName] using hslashes

/-! ### Expressions -/

def conditionExpr (identity : String × String) : Expr :=
  .compare (.path false [.step .attribute (.name identity.1) []]) [(.equal, .literal identity.2)]

/-- The expression that a base expression writes. -/
def baseExpr (e : Element) : Expr :=
  .path true [Step.everywhere, .step .child (.name e.tag) ((identity? e).map conditionExpr).toList]

def indexedExpr (e : Element) (i : Nat) : Expr :=
  .filter (baseExpr e) [.number (Number.ofNat i)] []

/-- **Every base expression is valid.** -/
theorem parse_baseExpression (e : Element) : Expr.parse (baseExpression e) = .ok (baseExpr e) := by
  have hscans := scans_baseExpression e (fun d hd => by simp at hd) Scans.nil
  rw [List.append_nil, List.append_nil] at hscans
  rw [Expr.parse, hscans.scan, ok_bind, baseTokens, baseExpr]
  cases identity? e with
  | none => rfl
  | some found => rfl

/-- **Every indexed base expression is valid**, whatever its number. -/
theorem parse_indexed_scaled (e : Element) (i : Nat) :
    Expr.parse (indexed (baseExpression e) i) =
      .ok (.filter (baseExpr e) [.number (Number.scaled i 0)] []) := by
  have hplace := Scans.place i
  have hparen := Scans.cons (c := ')') (by decide) (fun _ => rfl) (Nat.le_refl _) hplace
  have hbase := scans_baseExpression e (forall_mem_head? (by decide)) hparen
  have hscans := Scans.cons (c := '(') (by decide) (fun _ => rfl) (Nat.le_refl _) hbase
  rw [← toList_indexed] at hscans
  rw [Expr.parse, hscans.scan, ok_bind, baseTokens, baseExpr]
  cases identity? e with
  | none => rfl
  | some found => rfl

/-- Below the limit the number is exact. -/
theorem parse_indexed (e : Element) {i : Nat} (hpos : 0 < i) (hi : i < Number.exactLimit) :
    Expr.parse (indexed (baseExpression e) i) = .ok (indexedExpr e i) := by
  rw [parse_indexed_scaled, Number.scaled_zero_of_lt hpos hi, indexedExpr]

end ScreenInspector.Locator
