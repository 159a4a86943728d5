/-
  ScreenInspector/Proofs/SourceQueries.lean
  =========================================
  **What the locators of a tree select in its own source text.**

  A source text is read as a document whose labels are those of the nodes, in depth-first order,
  behind the document and the root element (`labels_sourceDocument`).  If all values of the tree are
  carried unchanged by attributes, the labels have the same values (`labels_of_isCarried`).  Then a
  base expression selects the nodes that share the identity of its element
  (`answer_baseExpression`), and with a position it selects the one at that place
  (`answer_indexed`).
-/
import ScreenInspector.Proofs.LocatorSyntax
import ScreenInspector.Proofs.Selection
import ScreenInspector.Proofs.SourceReading

namespace ScreenInspector

open Markup (Attribute Document Label)
open Expression (Decides NodeTest attributeValues)

/-! ### Labels of a source text -/

namespace Element

/-- All values that an element has in the source text are carried unchanged by attributes. -/
def IsCarried (e : Element) : Prop :=
  ∀ name ∈ sourceAttributes, ∀ c ∈ (e.sourceValue name).toList, Markup.isCarried c = true

instance (e : Element) : Decidable e.IsCarried :=
  decidable_of_iff (sourceAttributes.all (fun name =>
    (e.sourceValue name).toList.all Markup.isCarried) = true) (by simp [IsCarried])

def label (e : Element) : Label :=
  .element e.tag (sourceAttributes.map fun name => ⟨none, name, e.sourceValue name⟩)

theorem IsCarried.isLegal {e : Element} (h : e.IsCarried) : e.IsLegal :=
  fun name hname c hc => Markup.isLegal_of_isCarried (h name hname c hc)

theorem IsCarried.mirrored {e : Element} (h : e.IsCarried) :
    e.mirrored = sourceAttributes.map fun name => ⟨none, name, e.sourceValue name⟩ := by
  rw [Element.mirrored, sourcePairs, List.map_map]
  apply List.map_congr_left
  intro name hname
  simp only [Function.comp_apply, Markup.readBack_of_isCarried (h name hname),
    String.ofList_toList]

end Element

theorem Node.labels_mirror (n : Node) :
    n.mirror.labels = n.all.map fun m => .element m.element.tag m.element.mirrored := by
  induction n using Node.induction with
  | node e children ih =>
    have hchildren : (children.map mirror).flatMap Markup.Node.labels =
        (children.flatMap all).map fun m => .element m.element.tag m.element.mirrored := by
      rw [List.flatMap_map, List.map_flatMap]
      exact List.flatMap_congr ih
    rw [mirror, Markup.Node.labels, hchildren, all_node, List.map_cons]
    rfl

/-- The document that the source text of a tree writes. -/
def Node.sourceDocument (n : Node) : Document :=
  Document.ofNodes [.element wrapperTag [] [n.mirror]]

theorem Node.read_sourceText {n : Node} (h : ∀ m ∈ n.all, m.element.IsLegal) :
    Document.read n.sourceText = .ok n.sourceDocument := by
  rw [Document.read, n.readNodes_sourceText h]
  rfl

/-- **The labels of a source text**: those of the nodes in depth-first order, behind two others. -/
theorem Node.labels_sourceDocument (n : Node) :
    (List.range n.sourceDocument.size).map n.sourceDocument.label =
      .document :: .element wrapperTag [] ::
        n.all.map fun m => .element m.element.tag m.element.mirrored := by
  rw [sourceDocument, Document.map_label_range]
  simp only [List.flatMap_cons, List.flatMap_nil, List.append_nil, Markup.Node.labels,
    labels_mirror]

theorem Node.size_sourceDocument (n : Node) : n.sourceDocument.size = n.all.length + 2 := by
  simpa using congrArg List.length n.labels_sourceDocument

theorem Node.labels_of_isCarried {n : Node} (h : ∀ m ∈ n.all, m.element.IsCarried) :
    (List.range n.sourceDocument.size).map n.sourceDocument.label =
      .document :: .element wrapperTag [] :: n.all.map fun m => m.element.label := by
  have hlabels : n.all.map (fun m => Label.element m.element.tag m.element.mirrored) =
      n.all.map fun m => m.element.label := by
    apply List.map_congr_left
    intro m hm
    rw [(h m hm).mirrored]
    rfl
  rw [n.labels_sourceDocument, hlabels]

/-! ### References -/

/-- The reference of an element of a document. -/
def Markup.Label.reference? : Label → Option String
  | .element _ attributes => (attributes.find? fun a => a.name == "ref").map Attribute.value
  | _ => none

theorem Evaluator.references_eq (d : Document) (ids : List Nat) :
    Evaluator.references d ids = (ids.map d.label).filterMap Label.reference? := by
  rw [references, List.filterMap_map]
  induction ids with
  | nil => rfl
  | cons n rest ih =>
    have hhead : ∀ label, d.label n = label →
        (if d.isElement n then d.attribute? n "ref" else none) = label.reference? := by
      intro label hlabel
      cases label <;>
      simp [Document.isElement, Document.attribute?, Document.attributes, hlabel,
        Label.reference?]
    have hhead := hhead _ rfl
    rw [List.filter_cons, List.filterMap_cons, Function.comp_apply, ← hhead]
    cases d.isElement n with
    | true => simp only [if_true, List.filterMap_cons, ih]
    | false => simpa using ih

theorem Element.reference?_label (e : Element) : e.label.reference? = some e.reference := by
  simp [label, Label.reference?, sourceAttributes, sourceValue]

/-! ### What base expressions select -/

namespace Locator

/-- Whether an element of a document has a tag and, if one is given, an identity. -/
def selects (e : Element) : Label → Bool
  | .element name attributes =>
    name == e.tag && (identity? e).all fun (wanted, value) =>
      (attributes.filter fun a => wanted == a.name).any fun a => a.value == value
  | _ => false

theorem selects_label (e : Element) (d : Document) (m : Nat) :
    (d.name? m == some e.tag && (identity? e).all fun (name, value) =>
      (attributeValues d (.name name) [m]).any fun found => found == value) =
      selects e (d.label m) := by
  cases hlabel : d.label m with
  | element name attributes =>
    simp [Document.name?, Document.attributes, attributeValues, NodeTest.admitsAttribute, selects,
      hlabel, Function.comp_def]
  | document => simp [Document.name?, selects, hlabel]
  | text content => simp [Document.name?, selects, hlabel]
  | comment => simp [Document.name?, selects, hlabel]
  | instruction => simp [Document.name?, selects, hlabel]

theorem decides_condition (e : Element) (d : Document) :
    Decides (Expression.Expr.meanings d ((identity? e).map conditionExpr).toList) fun m =>
      (identity? e).all fun (name, value) =>
        (attributeValues d (.name name) [m]).any fun found => found == value := by
  cases identity? e with
  | none => exact Expression.decides_nil
  | some found =>
    apply Expression.decides_singleton
    exact Expression.meaning_attribute_equal d found.1 found.2

/-- **A base expression selects the elements with the tag and the identity**, in document order. -/
theorem meaning_baseExpr {source : String} {d : Document} (hread : Document.read source = .ok d)
    (e : Element) (c : Expression.Context) :
    (baseExpr e).meaning d c =
      .ok (.nodes ((List.range d.size).filter fun m => selects e (d.label m))) := by
  rw [Document.read] at hread
  cases hnodes : Markup.readNodes source with
  | error fault => simp [hnodes, Except.map] at hread
  | ok nodes =>
    rw [hnodes] at hread
    obtain rfl : Document.ofNodes nodes = d := Except.ok.inj hread
    have hselects := funext (selects_label e (Document.ofNodes nodes))
    rw [← hselects]
    exact Expression.select_everywhere nodes e.tag (decides_condition e _) c

/-- An identity attribute says something, so it is no missing one. -/
theorem sourceValue_beq (other : Element) {e : Element} {name value : String}
    (h : identity? e = some (name, value)) :
    (other.sourceValue name == value) = (other.attribute? name == some value) := by
  obtain ⟨hname, hmeaningful, -⟩ := identity?_spec h
  have hnonempty : value ≠ "" := by
    rw [Element.meaningful?, Option.filter_eq_some_iff] at hmeaningful
    simp only [Bool.and_eq_true, bne_iff_ne] at hmeaningful
    exact hmeaningful.2.1
  have hreference : name ≠ "ref" := by
    rintro rfl
    exact absurd hname (by decide)
  rw [Element.sourceValue, if_neg hreference]
  cases other.attribute? name with
  | none =>
    have hempty : ("" == value) = false := beq_eq_false_iff_ne.mpr hnonempty.symm
    simpa using hempty
  | some found => simp

theorem selects_element (e other : Element) : selects e other.label = sharesIdentity e other := by
  rw [sharesIdentity, Element.label, selects]
  cases hidentity : identity? e with
  | none => rfl
  | some found =>
    obtain ⟨name, value⟩ := found
    have hvalue := sourceValue_beq other hidentity
    obtain ⟨hname, -, -⟩ := identity?_spec hidentity
    simp only [Option.all_some]
    rw [← hvalue]
    simp only [identityAttributes, List.mem_cons, List.not_mem_nil, or_false] at hname
    rcases hname with rfl | rfl | rfl
    · simp [sourceAttributes]
    · simp [sourceAttributes]
    · simp [sourceAttributes]

end Locator

section Answers

open Locator

variable {source : String} {d : Document} {e : Element} {ids : List Nat} {asked : Questions}

/-- A base expression is answered with the references of what it means. -/
theorem Evaluator.answer_baseExpression (hread : Document.read source = .ok d)
    (hids : (baseExpr e).meaning d ⟨0, 1, 1⟩ = .ok (.nodes ids)) :
    (ofSource source).answer asked (baseExpression e) = .ok (references d ids) := by
  simp only [ofSource, answerIn, parse_baseExpression, hread, Expression.Expr.evaluate, hids]

/-- An indexed base expression is answered with the reference at its place, if that has one. -/
theorem Evaluator.answer_indexed (hread : Document.read source = .ok d)
    (hids : (baseExpr e).meaning d ⟨0, 1, 1⟩ = .ok (.nodes ids))
    (hlimit : ids.length < Number.exactLimit) {i : Nat} (hpos : 0 < i)
    (hi : i < Number.exactLimit) :
    (ofSource source).answer asked (indexed (baseExpression e) i) =
      .ok (references d ids[i - 1]?.toList) := by
  have hindexed := Expression.meaning_indexed hids hpos hi hlimit
  simp only [ofSource, answerIn, parse_indexed e hpos hi, hread, Expression.Expr.evaluate,
    indexedExpr, hindexed]

end Answers

section Queries

open Locator

variable {root : Node}

/-- The nodes of a tree that share the identity of an element. -/
def Node.sharing (root : Node) (e : Element) : List Node :=
  root.all.filter fun m => sharesIdentity e m.element

/-- A base expression selects the nodes that share the identity, in depth-first order, and before
them the root element if that has the tag and no identity is asked for. -/
theorem Node.meaning_baseExpr (h : ∀ m ∈ root.all, m.element.IsCarried) (e : Element)
    (c : Expression.Context) :
    ∃ ids, (baseExpr e).meaning root.sourceDocument c = .ok (.nodes ids) ∧
      ids.map root.sourceDocument.label =
        [Label.element wrapperTag []].filter (selects e) ++
          (root.sharing e).map fun m => m.element.label := by
  have hread := root.read_sourceText fun m hm => (h m hm).isLegal
  refine ⟨_, Locator.meaning_baseExpr hread e c, ?_⟩
  have hdocument : selects e .document = false := rfl
  show ((List.range root.sourceDocument.size).filter
    (selects e ∘ root.sourceDocument.label)).map root.sourceDocument.label = _
  rw [← List.filter_map, root.labels_of_isCarried h, List.filter_cons_of_neg (by simp [hdocument]),
    ← List.singleton_append, List.filter_append, List.filter_map, sharing]
  simp [Function.comp_def, selects_element]

theorem Locator.selects_wrapper {e : Element} (htag : e.tag ≠ wrapperTag) :
    selects e (.element wrapperTag []) = false := by
  have hne : (wrapperTag == e.tag) = false := beq_eq_false_iff_ne.mpr htag.symm
  simp only [selects, hne, Bool.false_and]

variable {asked : Questions}

/-- **A base expression is answered with the nodes that share the identity** of its element. -/
theorem Node.answer_baseExpression (h : ∀ m ∈ root.all, m.element.IsCarried) {e : Element}
    (htag : e.tag ≠ wrapperTag) :
    (Evaluator.ofSource root.sourceText).answer asked (baseExpression e) =
      .ok ((root.sharing e).map Node.reference) := by
  have hread := root.read_sourceText fun m hm => (h m hm).isLegal
  obtain ⟨ids, hids, hlabels⟩ := root.meaning_baseExpr h e ⟨0, 1, 1⟩
  rw [Evaluator.answer_baseExpression hread hids, Evaluator.references_eq, hlabels,
    List.filter_singleton, selects_wrapper htag]
  simp [Element.reference?_label, Node.reference]

/-- **An indexed base expression is answered with the node at its place** among these. -/
theorem Node.answer_indexed (h : ∀ m ∈ root.all, m.element.IsCarried)
    (hlimit : root.all.length < Number.exactLimit) {e : Element} (htag : e.tag ≠ wrapperTag)
    {i : Nat} (hpos : 0 < i) (hi : i < Number.exactLimit) :
    (Evaluator.ofSource root.sourceText).answer asked (indexed (baseExpression e) i) =
      .ok ((root.sharing e).map Node.reference)[i - 1]?.toList := by
  have hread := root.read_sourceText fun m hm => (h m hm).isLegal
  obtain ⟨ids, hids, hlabels⟩ := root.meaning_baseExpr h e ⟨0, 1, 1⟩
  rw [List.filter_singleton, selects_wrapper htag] at hlabels
  have hlength : ids.length < Number.exactLimit := by
    have hsame := congrArg List.length hlabels
    have hfilter : (root.sharing e).length ≤ root.all.length := List.length_filter_le _ _
    simp at hsame
    omega
  have hlabel : (ids[i - 1]?.toList).map root.sourceDocument.label =
      ((root.sharing e)[i - 1]?.toList).map fun m => m.element.label := by
    have hget := congrArg (fun labels => labels[i - 1]?) hlabels
    simp at hget
    rw [← Option.toList_map, hget, Option.toList_map]
  rw [Evaluator.answer_indexed hread hids hlength hpos hi, Evaluator.references_eq, hlabel,
    List.filterMap_map, List.getElem?_map, Option.toList_map]
  simp [Element.reference?_label, Node.reference]

end Queries

end ScreenInspector
