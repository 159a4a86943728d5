/-
  ScreenInspector/Proofs/SourceValues.lean
  ========================================
  **Which values a source text keeps.**

  Characters of markup are written as references and come back as they were.  Tabs and line ends are
  written as they are, and reading makes spaces of them, one of a carriage return with a line feed
  after it (`readBack_eq_normalized`).  So an element of the source text has the normalized values
  of its node, and it has the values of the node itself iff they hold neither tabs nor line ends
  (`Node.values_sourceText`).  An identity of two lines is lost (`Node.identity_twoLines`).
-/
import ScreenInspector.Proofs.SourceQueries
import ScreenInspector.Proofs.SourceStructure

namespace ScreenInspector

open Expression (NodeTest attributeValues)

namespace Markup

/-! ### Normalized values -/

/-- A character that reading replaces if it is written as it is. -/
def isLayout (c : Char) : Bool :=
  c == '\t' || c == '\n' || c == '\r'

/-- A value with a space for every tab and line end, of which a carriage return and a line feed make
one. -/
def normalized : List Char → List Char
  | [] => []
  | '\r' :: '\n' :: rest => ' ' :: normalized rest
  | c :: rest => (if isLayout c then ' ' else c) :: normalized rest

theorem attributeChars_writtenPiece {c : Char} {rest : List Char}
    (h : ∀ more, c = '\r' → rest ≠ '\n' :: more) :
    attributeChars (writtenPiece c :: rest.map writtenPiece) =
      (if isLayout c then ' ' else c) :: attributeChars (rest.map writtenPiece) := by
  cases hmarkup : isMarkup c with
  | true =>
    have hlayout : isLayout c = false := by
      rcases eq_of_isMarkup hmarkup with rfl | rfl | rfl | rfl | rfl <;> rfl
    simp [attributeChars, writtenPiece, hmarkup, hlayout]
  | false =>
    have hpair : ¬ (c = '\r' ∧ (rest.map writtenPiece).head? = some ⟨'\n', false⟩) := by
      rintro ⟨hc, hhead⟩
      cases rest with
      | nil => cases hhead
      | cons d more =>
        have hd : d = '\n' := by simpa [writtenPiece] using congrArg (Option.map Piece.char) hhead
        subst hd
        exact h more hc rfl
    have hlayout : (c = '\r' ∨ c = '\n' ∨ c = '\t') ↔ isLayout c = true := by
      simp only [isLayout, Bool.or_eq_true, beq_iff_eq]
      tauto
    rw [attributeChars]
    simp only [writtenPiece, hmarkup, Bool.false_eq_true, if_false]
    rw [if_neg hpair]
    split
    next hspace => rw [if_pos (hlayout.mp hspace)]
    next hother => rw [if_neg fun hspace => hother (hlayout.mpr hspace)]

theorem readBack_eq_normalized (value : List Char) : readBack value = normalized value := by
  unfold readBack
  induction value using normalized.induct with
  | case1 => rfl
  | case2 rest ih =>
    rw [normalized, ← ih]
    rfl
  | case3 c rest hpair ih =>
    rw [normalized, ← ih]
    · exact attributeChars_writtenPiece fun more hc hrest => hpair more hc hrest
    · exact fun more hc hrest => hpair more hc hrest

/-- **A value is normalized iff it holds neither tabs nor line ends.** -/
theorem normalized_eq_self_iff (value : List Char) :
    normalized value = value ↔ ∀ c ∈ value, isLayout c = false := by
  have hnone : ∀ c ∈ normalized value, isLayout c = false := by
    induction value using normalized.induct with
    | case1 => simp [normalized]
    | case2 rest ih => simpa [normalized, isLayout] using ih
    | case3 c rest hpair ih =>
      rw [normalized]
      · refine List.forall_mem_cons.mpr ⟨?_, ih⟩
        by_cases hc : isLayout c = true
        · rw [if_pos hc]
          rfl
        · rw [if_neg hc]
          exact Bool.eq_false_iff.mpr hc
      · exact fun more hc hrest => hpair more hc hrest
  constructor
  · intro h
    rwa [h] at hnone
  · intro h
    clear hnone
    induction value using normalized.induct with
    | case1 => rfl
    | case2 rest ih => exact absurd (h '\r' List.mem_cons_self) (by decide)
    | case3 c rest hpair ih =>
      obtain ⟨hc, hrest⟩ := List.forall_mem_cons.mp h
      rw [normalized, ih hrest, if_neg (by simp [hc])]
      exact fun more hc hrest => hpair more hc hrest

end Markup

/-! ### Elements of a source text -/

/-- The value of an attribute as the source text gives it back. -/
def Element.readValue (e : Element) (name : String) : String :=
  String.ofList (Markup.normalized (e.sourceValue name).toList)

theorem Element.readValue_eq_iff (e : Element) (name : String) :
    e.readValue name = e.sourceValue name ↔
      ∀ c ∈ (e.sourceValue name).toList, Markup.isLayout c = false := by
  rw [← Markup.normalized_eq_self_iff, readValue, ← String.toList_inj, String.toList_ofList]

theorem Element.mirrored_eq (e : Element) :
    e.mirrored = sourceAttributes.map fun name => ⟨none, name, e.readValue name⟩ := by
  rw [mirrored, sourcePairs, List.map_map]
  apply List.map_congr_left
  intro name _
  simp [readValue, Markup.readBack_eq_normalized]

namespace Node

variable {n m : Node} {k : Nat}

/-- The nodes stand behind the document and the root element. -/
theorem label_sourceDocument (h : n.all[k]? = some m) :
    n.sourceDocument.label (k + 2) = .element m.element.tag m.element.mirrored := by
  have hlabels := congrArg (fun labels => labels[k + 2]?) n.labels_sourceDocument
  have hinside : k + 2 < n.sourceDocument.size := by
    by_contra hout
    simp [hout, h] at hlabels
  simpa [hinside, h] using hlabels

/-- Whether one looks the attribute up or queries it, the value is the one that was read. -/
theorem values_sourceDocument (h : n.all[k]? = some m) {name : String}
    (hname : name ∈ sourceAttributes) :
    n.sourceDocument.attribute? (k + 2) name = some (m.element.readValue name) ∧
      attributeValues n.sourceDocument (.name name) [k + 2] = [m.element.readValue name] := by
  have hattributes : n.sourceDocument.attributes (k + 2) =
      sourceAttributes.map fun name => ⟨none, name, m.element.readValue name⟩ := by
    rw [Markup.Document.attributes, label_sourceDocument h, m.element.mirrored_eq]
  simp only [sourceAttributes, List.mem_cons, List.not_mem_nil, or_false] at hname
  rcases hname with rfl | rfl | rfl | rfl | rfl | rfl <;>
  simp [Markup.Document.attribute?, attributeValues, hattributes, sourceAttributes,
    NodeTest.admitsAttribute]

/-- **The values of a source text.**  The elements behind the document and the root element are
those of the nodes, in depth-first order.  Each has the normalized values of its node, whether one
looks them up or queries them, and these are the values of the node iff they hold neither tabs nor
line ends. -/
theorem values_sourceText (n : Node) (hlegal : ∀ m ∈ n.all, m.element.IsLegal) :
    ∃ d, Markup.Document.read n.sourceText = .ok d ∧ d.size = n.all.length + 2 ∧
      ∀ k m, n.all[k]? = some m →
        d.name? (k + 2) = some m.element.tag ∧
        ∀ name ∈ sourceAttributes,
          d.attribute? (k + 2) name = some (m.element.readValue name) ∧
          attributeValues d (.name name) [k + 2] = [m.element.readValue name] ∧
          (m.element.readValue name = m.element.sourceValue name ↔
            ∀ c ∈ (m.element.sourceValue name).toList, Markup.isLayout c = false) := by
  refine ⟨n.sourceDocument, read_sourceText hlegal, n.size_sourceDocument, ?_⟩
  intro k m hm
  refine ⟨by rw [Markup.Document.name?, label_sourceDocument hm], ?_⟩
  intro name hname
  obtain ⟨hlookup, hquery⟩ := values_sourceDocument hm hname
  exact ⟨hlookup, hquery, m.element.readValue_eq_iff name⟩

/-- A label with an identity of two lines and a value with markup. -/
def twoLines : Node :=
  .node ⟨"first", "Label", none, [("id", "one\ntwo"), ("value", "<b> & 'c'")], none, none⟩ []

theorem isLegal_twoLines : ∀ m ∈ twoLines.all, m.element.IsLegal := by
  simp only [twoLines, forall_mem_all, List.not_mem_nil, false_imp_iff, implies_true, and_true]
  decide

/-- Markup in a value is kept. -/
theorem values_twoLines :
    (∀ m ∈ twoLines.all, m.element.IsLegal) ∧
    ∃ d, Markup.Document.read twoLines.sourceText = .ok d ∧
      d.attribute? 2 "value" = some "<b> & 'c'" := by
  obtain ⟨d, hread, -, hvalues⟩ := twoLines.values_sourceText isLegal_twoLines
  have hroot : twoLines.all[0]? = some twoLines := by
    simp [twoLines, all_node]
  obtain ⟨-, hattributes⟩ := hvalues 0 twoLines hroot
  obtain ⟨hlookup, -, -⟩ := hattributes "value" (by decide)
  have hvalue : twoLines.element.readValue "value" = "<b> & 'c'" := by decide
  rw [hvalue] at hlookup
  exact ⟨isLegal_twoLines, d, hread, hlookup⟩

/-- **A line end in a value is lost**: the node has another identity than its element. -/
theorem identity_twoLines :
    (∀ m ∈ twoLines.all, m.element.IsLegal) ∧ twoLines.all[0]? = some twoLines ∧
    twoLines.element.attribute? "id" = some "one\ntwo" ∧
    ∃ d, Markup.Document.read twoLines.sourceText = .ok d ∧
      d.attribute? 2 "id" = some "one two" ∧
      attributeValues d (.name "id") [2] = ["one two"] := by
  have hroot : twoLines.all[0]? = some twoLines := by
    simp [twoLines, all_node]
  have hvalue : twoLines.element.readValue "id" = "one two" := by decide
  obtain ⟨hlookup, hquery⟩ := values_sourceDocument hroot (show "id" ∈ sourceAttributes by decide)
  rw [hvalue] at hlookup hquery
  exact ⟨isLegal_twoLines, hroot, by decide, twoLines.sourceDocument,
    read_sourceText isLegal_twoLines, hlookup, hquery⟩

end Node

end ScreenInspector
