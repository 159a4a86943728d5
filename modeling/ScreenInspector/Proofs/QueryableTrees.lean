/-
  ScreenInspector/Proofs/QueryableTrees.lean
  ==========================================
  **Which trees can be queried.**

  A source text that comes with a payload is read before the tree is accepted.  One that is written
  from the nodes is not, and it has every character of the values in it, be it as it is or as a
  reference.  Since a document holds legal characters only (`Markup.isLegalText_of_readNodes`),
  such a source text is a document iff all values of the nodes are legal
  (`Node.readNodes_sourceText_iff`).

  An evaluator reports a malformed source text for every valid expression or for none.  So a tree
  with a source text of its own can always be queried, and one without iff its values are legal
  (`Tree.answers_of_ofPayload`).  A control character in a value makes a tree that is accepted and
  can never be queried (`Tree.answer_controlScreen`).
-/
import ScreenInspector.Proofs.LegalTexts
import ScreenInspector.Proofs.LocatorSyntax
import ScreenInspector.Proofs.PayloadFormats
import ScreenInspector.Proofs.SourceStructure

namespace ScreenInspector

/-! ### Characters of a source text -/

theorem Markup.mem_escaped_of_not_isMarkup {c : Char} {value : List Char} (hc : c ∈ value)
    (hmarkup : isMarkup c = false) : c ∈ escaped value := by
  refine List.mem_flatMap.mpr ⟨c, hc, ?_⟩
  rw [escapedChar_of_not_isMarkup hmarkup]
  exact List.mem_singleton_self c

theorem Element.mem_attributesText (e : Element) {name : String} (hname : name ∈ sourceAttributes)
    {c : Char} (hc : c ∈ (e.sourceValue name).toList) (hmarkup : Markup.isMarkup c = false) :
    c ∈ e.attributesText := by
  refine List.mem_flatMap.mpr ⟨name, hname, ?_⟩
  have hescaped := Markup.mem_escaped_of_not_isMarkup hc hmarkup
  simp [attributeText, hescaped]

theorem Node.mem_rendered {n m : Node} (hm : m ∈ n.all) {c : Char}
    (hc : c ∈ m.element.attributesText) : c ∈ n.rendered := by
  induction n using Node.induction with
  | node e children ih =>
    rw [all_node] at hm
    rw [rendered]
    rcases List.mem_cons.mp hm with rfl | hbelow
    · simp only [element] at hc
      split <;> simp [hc]
    · obtain ⟨child, hchild, hm⟩ := List.mem_flatMap.mp hbelow
      have hrendered : c ∈ children.flatMap rendered :=
        List.mem_flatMap.mpr ⟨child, hchild, ih child hchild hm⟩
      have hsome : children.isEmpty = false := by
        cases children with
        | nil => cases hchild
        | cons _ _ => rfl
      simp [hsome, hrendered]

theorem Markup.isMarkup_of_not_isLegal {c : Char} (h : isLegal c = false) : isMarkup c = false := by
  by_contra hmarkup
  rcases eq_of_isMarkup (Bool.eq_true_of_not_eq_false hmarkup) with rfl | rfl | rfl | rfl | rfl <;>
  exact absurd h (by decide)

/-- **A written source text is a document iff all values are legal.** -/
theorem Node.readNodes_sourceText_iff (n : Node) :
    (∃ nodes, Markup.readNodes n.sourceText = .ok nodes) ↔ ∀ m ∈ n.all, m.element.IsLegal := by
  constructor
  · rintro ⟨nodes, hread⟩ m hm name hname c hc
    have htext := Markup.isLegalText_of_readNodes hread
    by_contra hillegal
    have hmarkup := Markup.isMarkup_of_not_isLegal (Bool.eq_false_of_not_eq_true hillegal)
    have hrendered := mem_rendered hm (m.element.mem_attributesText hname hc hmarkup)
    apply hillegal
    apply htext
    rw [n.sourceText_toList]
    simp [hrendered]
  · intro hlegal
    exact ⟨_, readNodes_sourceText hlegal⟩

/-! ### Answers -/

/-- What an evaluator reports of a source text that is no document. -/
theorem Evaluator.answer_of_unreadable {source : String} {fault : Markup.Fault}
    (h : Markup.readNodes source = .error fault) {expression : String} {e : Expression.Expr}
    (hparse : Expression.Expr.parse expression = .ok e) (asked : Questions) :
    (ofSource source).answer asked expression = .error (.malformed (.sourceText fault)) := by
  have hdocument : Markup.Document.read source = .error fault := by
    rw [Markup.Document.read, h]
    rfl
  simp only [ofSource, answerIn, hparse, hdocument]

theorem Evaluator.answer_ne_malformed {source : String} {nodes : List Markup.Node}
    (h : Markup.readNodes source = .ok nodes) (asked : Questions) (expression : String)
    (cause : Malformation) :
    (ofSource source).answer asked expression ≠ .error (.malformed cause) := by
  have hdocument : Markup.Document.read source = .ok (Markup.Document.ofNodes nodes) := by
    rw [Markup.Document.read, h]
    rfl
  intro hanswer
  simp only [ofSource, answerIn, hdocument] at hanswer
  split at hanswer
  · cases hanswer
  · split at hanswer <;> cases hanswer

/-! ### Accepted trees -/

theorem Tree.readNodes_of_assemble {root : Node} {source kind : String} {t : Tree}
    (h : assemble root (some source) kind = .ok t) :
    ∃ nodes, Markup.readNodes source = .ok nodes := by
  simp only [assemble] at h
  split at h
  · cases h
  · obtain ⟨index, -, h⟩ := bind_eq_ok_iff.mp h
    cases hread : Markup.readNodes source with
    | error fault => simp [hread] at h
    | ok nodes => exact ⟨nodes, rfl⟩

theorem Tree.assemble_of_ofPayload {payload : Json} {kind : String} {t : Tree}
    (h : ofPayload payload kind = .ok t) :
    ∃ root, assemble root (servedSource? payload) kind = .ok t := by
  simp only [ofPayload] at h
  split at h
  · cases h
  · obtain ⟨root, -, hassemble⟩ := bind_eq_ok_iff.mp h
    exact ⟨root, hassemble⟩

/-- Whether the source text of an accepted tree is a document. -/
theorem Tree.readNodes_source_iff {payload : Json} {kind : String} {t : Tree}
    (h : ofPayload payload kind = .ok t) :
    (∃ nodes, Markup.readNodes t.source = .ok nodes) ↔
      (servedSource? payload).isSome = true ∨ ∀ m ∈ t.nodes, m.element.IsLegal := by
  obtain ⟨root, hassemble⟩ := assemble_of_ofPayload h
  obtain ⟨hroot, hsource, -⟩ := assemble_ok hassemble
  cases hserved : servedSource? payload with
  | some source =>
    rw [hserved] at hassemble hsource
    obtain ⟨nodes, hread⟩ := readNodes_of_assemble hassemble
    rw [hsource]
    exact ⟨fun _ => Or.inl rfl, fun _ => ⟨nodes, hread⟩⟩
  | none =>
    rw [hserved] at hsource
    rw [hsource, nodes, hroot, Option.getD_none, root.readNodes_sourceText_iff]
    simp

/-- **Which accepted trees can be queried**: all that came with a source text, and those whose
values are legal.  The source text of any other is no document, which is what every valid expression
is answered with. -/
theorem Tree.answers_of_ofPayload {payload : Json} {kind : String} {t : Tree}
    (h : ofPayload payload kind = .ok t) :
    ((servedSource? payload).isSome = true ∨ (∀ m ∈ t.nodes, m.element.IsLegal) →
      (∃ nodes, Markup.readNodes t.source = .ok nodes) ∧
      ∀ asked expression cause,
        t.evaluator.answer asked expression ≠ .error (.malformed cause)) ∧
    (¬ ((servedSource? payload).isSome = true ∨ ∀ m ∈ t.nodes, m.element.IsLegal) →
      ∃ fault, Markup.readNodes t.source = .error fault ∧
        ∀ asked expression e, Expression.Expr.parse expression = .ok e →
          t.evaluator.answer asked expression = .error (.malformed (.sourceText fault))) := by
  rw [← readNodes_source_iff h]
  constructor
  · rintro ⟨nodes, hread⟩
    exact ⟨⟨nodes, hread⟩, fun asked expression cause =>
      Evaluator.answer_ne_malformed hread asked expression cause⟩
  · intro hunreadable
    cases hread : Markup.readNodes t.source with
    | ok nodes => exact absurd ⟨nodes, hread⟩ hunreadable
    | error fault =>
      exact ⟨fault, rfl, fun asked expression e hparse =>
        Evaluator.answer_of_unreadable hread hparse asked⟩

/-- A screen of two nodes with legal values can be queried. -/
theorem Tree.answers_nativeScreen :
    ofPayload nativeScreen webViewKind = .ok nativeScreenTree ∧
    ∀ asked expression cause,
      nativeScreenTree.evaluator.answer asked expression ≠ .error (.malformed cause) := by
  have hlegal : ∀ m ∈ nativeScreenTree.nodes, m.element.IsLegal := by
    simp only [nodes, nativeScreenTree, nativeScreenRoot, Node.forall_mem_all,
      List.forall_mem_cons]
    exact ⟨by decide, by decide, by simp⟩
  obtain ⟨hqueryable, -⟩ := answers_of_ofPayload ofPayload_nativeScreen
  exact ⟨ofPayload_nativeScreen, (hqueryable (Or.inr hlegal)).2⟩

/-- A view whose reference is a control character. -/
def controlScreen : Json :=
  .object [("type", .string "View"), ("ref", .string "\x01"),
    ("rect", .object [("origin", .object [("x", .whole 0), ("y", .whole 0)]),
      ("size", .object [("width", .whole 1), ("height", .whole 1)])])]

def controlScreenRoot : Node :=
  .node ⟨"\x01", "View", some ⟨Number.ofInt 0, Number.ofInt 0, Number.ofInt 1, Number.ofInt 1⟩, [],
    none, none⟩ []

/-- **A tree may be accepted that can never be queried.** -/
theorem Tree.answer_controlScreen :
    ∃ t fault, ofPayload controlScreen webViewKind = .ok t ∧
      t.evaluator.answer [] "//View" = .error (.malformed (.sourceText fault)) := by
  have hread : ∀ levels, readNode .native (levels + 1) controlScreen = .ok controlScreenRoot := by
    intro levels
    rfl
  have hroot : readNode .native (Malformation.depthLimit + 1) controlScreen =
      .ok controlScreenRoot := hread 512
  have hassemble : assemble controlScreenRoot none webViewKind =
      .ok ⟨controlScreenRoot, controlScreenRoot.sourceText, [("\x01", [])], none⟩ := by
    simp [assemble, webViewKind, controlScreenRoot, Node.withPaths, Node.walk_cons, Node.walk_nil,
      Node.labelled, Node.children, Node.element, Node.reference, PathIndex.extend, List.lookup]
  have htree : ofPayload controlScreen webViewKind =
      .ok ⟨controlScreenRoot, controlScreenRoot.sourceText, [("\x01", [])], none⟩ := by
    rw [ofPayload_of_native (by decide) rfl, hroot]
    exact hassemble
  have hillegal : ¬ ∀ m ∈ controlScreenRoot.all, m.element.IsLegal := by
    intro hlegal
    have hroot := hlegal controlScreenRoot controlScreenRoot.self_mem_all
    exact absurd hroot (by decide)
  have hbase := Locator.parse_baseExpression controlScreenRoot.element
  have htext : Locator.baseExpression controlScreenRoot.element = "//View" := by decide
  rw [htext] at hbase
  have hiff := controlScreenRoot.readNodes_sourceText_iff
  cases hsource : Markup.readNodes controlScreenRoot.sourceText with
  | ok nodes => exact absurd (hiff.mp ⟨nodes, hsource⟩) hillegal
  | error fault =>
    exact ⟨_, fault, htree, Evaluator.answer_of_unreadable hsource hbase []⟩

end ScreenInspector
