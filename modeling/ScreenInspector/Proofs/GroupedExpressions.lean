/-
  ScreenInspector/Proofs/GroupedExpressions.lean
  ==============================================
  **Places in a group are counted over the whole result.**

  An expression text in parentheses selects what it selects without them, and with a place behind
  the parentheses it selects the node at that place of the whole list, if there is one.

  The text is cut into the tokens of the expression between those of the group, since a closing
  parenthesis prolongs no token (`Scans.append`).
  What is inside the parentheses is read with one level less and before a closing token, so it is
  read as the same expression or the group is too deep (`parse_grouped`).  The place is a number of
  any size: below the limit of exact doubles it is the place itself, from the limit on it is equal
  to no place that is counted (`filterBy_scaled`).
-/
import ScreenInspector.Locator.Synthesis
import ScreenInspector.Proofs.LargeNumbers
import ScreenInspector.Proofs.NodeSets
import ScreenInspector.Proofs.ParserExtension
import ScreenInspector.Proofs.Selection
import ScreenInspector.Proofs.TokenComposition

namespace ScreenInspector.Expression

open ScreenInspector.Markup (Document)

/-! ### Places of any size -/

/-- A number that is equal to no place keeps nothing. -/
theorem keepFrom_of_noPlace {x : Float}
    (hx : ∀ p, 0 < p → p < Number.exactLimit → (x == Number.ofNat p) = false) (size : Nat)
    {position : Nat} (hpos : 0 < position) (ns : List Nat)
    (hns : position + ns.length ≤ Number.exactLimit) :
    keepFrom (fun _ => .ok (.number x)) size position ns = .ok [] := by
  induction ns generalizing position with
  | nil => rfl
  | cons n rest ih =>
    rw [List.length_cons] at hns
    have hkeeps : Value.keeps position (.number x) = false := hx position hpos (by omega)
    rw [keepFrom, ok_bind, ih (Nat.succ_pos _) (by omega), ok_bind, hkeeps]
    rfl

/-- **A whole number as predicate keeps the node at that place**, however large the number is. -/
theorem filterBy_scaled {i : Nat} (hpos : 0 < i) {ns : List Nat}
    (hns : ns.length < Number.exactLimit) :
    filterBy [fun _ => .ok (.number (Number.scaled i 0))] ns = .ok ns[i - 1]?.toList := by
  by_cases hi : i < Number.exactLimit
  · rw [Number.scaled_zero_of_lt hpos hi]
    exact filterBy_number hpos hi hns
  · have hlarge := Nat.le_of_not_lt hi
    have hnone : ns[i - 1]? = none := List.getElem?_eq_none (by omega)
    have hkeep := keepFrom_of_noPlace (fun _ => Number.scaled_beq_ofNat hlarge) ns.length
      Nat.one_pos ns (by omega)
    rw [filterBy, hkeep, ok_bind, hnone]
    rfl

/-! ### Parsing a group -/

/-- An expression in parentheses with predicates behind them. -/
def Expr.grouped (e : Expr) (predicates : List Expr) : Expr :=
  if predicates.isEmpty then e else .filter e predicates []

theorem parseExpr_of_ofTokens {ts : List Token} {e : Expr} (h : Expr.ofTokens ts = .ok e) :
    parseExpr depthLimit ts = .ok (e, []) := by
  rw [Expr.ofTokens] at h
  split at h
  · cases h
  · obtain ⟨⟨e', rest⟩, hparse, h⟩ := bind_eq_ok_iff.mp h
    cases rest with
    | nil =>
      obtain rfl := Except.ok.inj h
      exact hparse
    | cons t more => cases h

section Group

variable {nested : Parser Expr} {ts after : List Token} {e : Expr} {predicates : List Expr}

/-- Where nothing is left behind a group, no operator is found there. -/
theorem parseEither_openParen
    (h : ∀ a rest, parseFilter nested (.openParen :: ts) = .ok (a, rest) → rest = []) :
    parseEither nested (.openParen :: ts) = parseFilter nested (.openParen :: ts) := by
  have hpath : parsePath nested (.openParen :: ts) = parseFilter nested (.openParen :: ts) := rfl
  simp only [parseEither, parseBoth, parseEquality, parseOrder, parseSum, parseProduct, parseSign,
    splitMinus, parseUnion, chain, hpath]
  cases hfilter : parseFilter nested (.openParen :: ts) with
  | error fault => rfl
  | ok result =>
    obtain ⟨a, rest⟩ := result
    obtain rfl := h a rest hfilter
    rfl

theorem parseEither_grouped (he : nested ts = .ok (e, .closeParen :: after))
    (hafter : parsePredicates nested after = .ok (predicates, [])) :
    parseEither nested (.openParen :: ts) = .ok (e.grouped predicates, []) := by
  have hfilter : parseFilter nested (.openParen :: ts) = .ok (e.grouped predicates, []) := by
    simp only [parseFilter, parsePrimary, he, ok_bind, closeParen_eq_ok_iff.mpr rfl, pure_eq_ok,
      hafter, parseStepsAfter, Expr.grouped, List.isEmpty_nil, Bool.and_true]
    split <;> rfl
  rw [parseEither_openParen, hfilter]
  intro a rest h
  rw [hfilter] at h
  exact (Prod.mk.inj (Except.ok.inj h)).2.symm

theorem parseEither_grouped_error {fault : Fault} (h : nested ts = .error fault) :
    parseEither nested (.openParen :: ts) = .error fault := by
  have hfilter : parseFilter nested (.openParen :: ts) = .error fault := by
    simp only [parseFilter, parsePrimary, h]
    rfl
  rw [parseEither_openParen, hfilter]
  intro a rest hok
  rw [hfilter] at hok
  cases hok

/-- **The tokens of a group** make up the expression inside it with the predicates behind it, or
they are nested too deep; which of the two is a matter of the expression alone. -/
theorem ofTokens_grouped (h : Expr.ofTokens ts = .ok e)
    (hafter : parsePredicates (parseExpr (depthLimit - 1)) after = .ok (predicates, [])) :
    (Grammar.Nested (depthLimit - 1) ts [] →
      Expr.ofTokens (.openParen :: (ts ++ .closeParen :: after)) = .ok (e.grouped predicates)) ∧
    (¬ Grammar.Nested (depthLimit - 1) ts [] →
      Expr.ofTokens (.openParen :: (ts ++ .closeParen :: after)) = .error .tooDeep) := by
  have hlevel : parseExpr depthLimit (.openParen :: (ts ++ .closeParen :: after)) =
      parseEither (parseExpr (depthLimit - 1)) (.openParen :: (ts ++ .closeParen :: after)) := rfl
  have hextends : Extends (.closeParen :: after) (parseExpr (depthLimit - 1 + 1))
      (parseExpr (depthLimit - 1)) := extends_parseExpr rfl (depthLimit - 1)
  simp only [Expr.ofTokens, List.isEmpty_cons, Bool.false_eq_true, if_false, hlevel]
  rcases hextends ts e [] (parseExpr_of_ofTokens h) with ⟨halone, hbefore⟩ | ⟨halone, hbefore⟩
  · have hnested := (reads_nested (depthLimit - 1)).sound halone
    refine ⟨fun _ => ?_, fun hdeep => absurd hnested hdeep⟩
    rw [parseEither_grouped hbefore hafter]
    rfl
  · refine ⟨fun hnested => ?_, fun _ => ?_⟩
    · obtain ⟨e', he'⟩ := (reads_nested (depthLimit - 1)).accepts hnested (Nat.le_refl 0)
      rw [halone] at he'
      cases he'
    · rw [parseEither_grouped_error hbefore]
      rfl

end Group

/-! ### Texts -/

/-- A text in parentheses. -/
def groupText (text : String) : String :=
  "(" ++ text ++ ")"

/-- Whether a text writes an expression with at most so many levels, its own included. -/
def IsNestedWithin (levels : Nat) (text : String) : Prop :=
  ∃ ts, Token.scan text = .ok ts ∧ Grammar.Nested levels ts []

section Text

variable {text : String} {e : Expr}

/-- **The text of a group** writes the expression inside it with the predicates behind it, or is
nested too deep. -/
theorem parse_grouped (h : Expr.parse text = .ok e) {whole : String} {rest : List Char}
    (hwhole : whole.toList = '(' :: (text.toList ++ ')' :: rest)) {after : List Token}
    (hrest : Scans rest after) {predicates : List Expr}
    (hafter : parsePredicates (parseExpr (depthLimit - 1)) after = .ok (predicates, [])) :
    (IsNestedWithin (depthLimit - 1) text → Expr.parse whole = .ok (e.grouped predicates)) ∧
      (¬ IsNestedWithin (depthLimit - 1) text → Expr.parse whole = .error .tooDeep) := by
  obtain ⟨ts, hscan, htokens⟩ := bind_eq_ok_iff.mp h
  have hgroup := Scans.group hscan hrest
  rw [← hwhole] at hgroup
  have hnested : IsNestedWithin (depthLimit - 1) text ↔ Grammar.Nested (depthLimit - 1) ts [] := by
    constructor
    · rintro ⟨ts', hscan', hnested⟩
      obtain rfl := Except.ok.inj (hscan.symm.trans hscan')
      exact hnested
    · exact fun hnested => ⟨ts, hscan, hnested⟩
  rw [Expr.parse, hgroup.scan, ok_bind, hnested]
  exact ofTokens_grouped htokens hafter

theorem parse_groupText (h : Expr.parse text = .ok e) :
    (IsNestedWithin (depthLimit - 1) text → Expr.parse (groupText text) = .ok e) ∧
      (¬ IsNestedWithin (depthLimit - 1) text →
        Expr.parse (groupText text) = .error .tooDeep) := by
  have hwhole : (groupText text).toList = '(' :: (text.toList ++ [')']) := by
    simp [groupText]
  exact parse_grouped h hwhole Scans.nil rfl

theorem parse_indexedText (h : Expr.parse text = .ok e) (i : Nat) :
    (IsNestedWithin (depthLimit - 1) text →
        Expr.parse (Locator.indexed text i) =
          .ok (.filter e [.number (Number.scaled i 0)] [])) ∧
      (¬ IsNestedWithin (depthLimit - 1) text →
        Expr.parse (Locator.indexed text i) = .error .tooDeep) :=
  parse_grouped h (Locator.toList_indexed text i) (Scans.place i) rfl

end Text

/-! ### Groups over a document -/

/-- An expression selects no more nodes than the document has. -/
theorem length_le_of_evaluate {nodes : List Markup.Node} {e : Expr} {ns : List Nat}
    (h : e.evaluate (Document.ofNodes nodes) = .ok (.nodes ns)) :
    ns.length ≤ (Document.ofNodes nodes).size := by
  have hcanonical := e.isCanonical (isClosed_size nodes) (isClosed_size nodes).document h
  have hsublist := sublist_range hcanonical.pairwise hcanonical.isInside
  exact hsublist.length_le.trans (Nat.le_of_eq List.length_range)

/-- **Places in a group are counted over the whole result.**  Over a document with fewer nodes than
the limit of exact doubles, let an expression text select a list of nodes.  If it leaves a level to
the parentheses, then the text in parentheses selects the same list, and the text in parentheses
with a place behind them selects the node at that place of the list, or nothing if the list is
shorter, for every place from 1 on.  If it uses all levels, then all these texts are rejected as
nested too deep. -/
theorem group_counts_whole_result {nodes : List Markup.Node}
    (hsize : (Document.ofNodes nodes).size < Number.exactLimit) {text : String} {e : Expr}
    (hparse : Expr.parse text = .ok e) {ns : List Nat}
    (hevaluate : e.evaluate (Document.ofNodes nodes) = .ok (.nodes ns)) :
    (IsNestedWithin (depthLimit - 1) text →
      (∃ grouped, Expr.parse (groupText text) = .ok grouped ∧
        grouped.evaluate (Document.ofNodes nodes) = .ok (.nodes ns)) ∧
      ∀ i, 1 ≤ i → ∃ indexed, Expr.parse (Locator.indexed text i) = .ok indexed ∧
        indexed.evaluate (Document.ofNodes nodes) = .ok (.nodes ns[i - 1]?.toList)) ∧
    (¬ IsNestedWithin (depthLimit - 1) text →
      Expr.parse (groupText text) = .error .tooDeep ∧
      ∀ i, 1 ≤ i → Expr.parse (Locator.indexed text i) = .error .tooDeep) := by
  have hns : ns.length < Number.exactLimit :=
    Nat.lt_of_le_of_lt (length_le_of_evaluate hevaluate) hsize
  obtain ⟨hgroup, hgroupDeep⟩ := parse_groupText hparse
  constructor
  · intro hnested
    refine ⟨⟨e, hgroup hnested, hevaluate⟩, fun i hpos => ?_⟩
    have hplace := filterBy_scaled hpos hns
    exact ⟨_, (parse_indexedText hparse i).1 hnested, meaning_filter hevaluate hplace⟩
  · intro hdeep
    exact ⟨hgroupDeep hdeep, fun i _ => (parse_indexedText hparse i).2 hdeep⟩

/-- Two rows with a cell each. -/
def twoRows : List Markup.Node :=
  [.element "Row" [] [.element "Cell" [] []], .element "Row" [] [.element "Cell" [] []]]

def cellsOfRows : Expr :=
  .path true [Step.everywhere, .step .child (.name "Cell") []]

/-- The second cell is the first of its row, but the second of the group. -/
theorem group_counts_whole_result_twoRows :
    (Document.ofNodes twoRows).size < Number.exactLimit ∧
    Expr.parse "//Cell" = .ok cellsOfRows ∧
    cellsOfRows.evaluate (Document.ofNodes twoRows) = .ok (.nodes [2, 4]) ∧
    (∃ grouped, Expr.parse "(//Cell)" = .ok grouped ∧
      grouped.evaluate (Document.ofNodes twoRows) = .ok (.nodes [2, 4])) ∧
    (∃ indexed, Expr.parse "(//Cell)[2]" = .ok indexed ∧
      indexed.evaluate (Document.ofNodes twoRows) = .ok (.nodes [4])) ∧
    ∃ indexed, Expr.parse "(//Cell)[3]" = .ok indexed ∧
      indexed.evaluate (Document.ofNodes twoRows) = .ok (.nodes []) := by
  have hsize : (Document.ofNodes twoRows).size < Number.exactLimit := by decide
  have hparse : Expr.parse "//Cell" = .ok cellsOfRows := rfl
  have hall : Decides (Expr.meanings (Document.ofNodes twoRows) []) fun _ => true := decides_nil
  have hevaluate : cellsOfRows.evaluate (Document.ofNodes twoRows) = .ok (.nodes [2, 4]) :=
    select_everywhere twoRows "Cell" hall ⟨0, 1, 1⟩
  have hnested : IsNestedWithin (depthLimit - 1) "//Cell" :=
    ⟨[.doubleSlash, .name "Cell"], rfl,
      (reads_nested (depthLimit - 1)).sound (a := cellsOfRows) rfl⟩
  obtain ⟨hgroup, hindexed⟩ := (group_counts_whole_result hsize hparse hevaluate).1 hnested
  exact ⟨hsize, hparse, hevaluate, hgroup, hindexed 2 (by decide), hindexed 3 (by decide)⟩

end ScreenInspector.Expression
