/-
  ScreenInspector/Proofs/SourceReading.lean
  =========================================
  **The source text of a tree is read back as the tree.**

  The text is written with a list of pending pieces; `write_tree` turns this into plain recursion:
  a tree is its start tag, the texts of its children and its end tag.  The scanner cuts such a text
  into the tags of the tree (`reads_rendered`), and the builder, whatever elements are open
  around it, adds one element per tree (`run_tokens`).  So the whole text is read as the root
  element with the `mirror` of the tree in it (`readNodes_sourceText`): one element per node, nested
  as the nodes are, with the six attributes as they are read back.

  All that is asked of the values is that they hold legal characters.
-/
import ScreenInspector.Markup.Tree
import ScreenInspector.Proofs.AttributeText
import ScreenInspector.Proofs.Tags
import ScreenInspector.Proofs.Traversal

namespace ScreenInspector

open Markup (QName Attribute Frame Builder)

/-! ### Tags of a tree -/

namespace Element

/-- The names and values of the attributes of an element in the source text. -/
def sourcePairs (e : Element) : List (List Char × List Char) :=
  sourceAttributes.map fun name => (name.toList, (e.sourceValue name).toList)

/-- All values that an element has in the source text hold legal characters. -/
def IsLegal (e : Element) : Prop :=
  ∀ name ∈ sourceAttributes, ∀ c ∈ (e.sourceValue name).toList, Markup.isLegal c = true

def qname (e : Element) : QName := ⟨[], tagChars e.kind.toList⟩

def startTag (e : Element) (closed : Bool) : Markup.Token :=
  .startTag e.qname (Markup.rawAttributes e.sourcePairs) closed

/-- The attributes of an element as they are read back. -/
def mirrored (e : Element) : List Attribute :=
  e.sourcePairs.map fun a => ⟨none, String.ofList a.1, String.ofList (Markup.readBack a.2)⟩

theorem attributesText_eq (e : Element) :
    e.attributesText = Markup.writtenAttributes e.sourcePairs := by
  rw [attributesText, Markup.writtenAttributes, sourcePairs, List.flatMap_map]

end Element

namespace Node

/-- The text of a tree: its start tag, the texts of its children and its end tag. -/
def rendered : Node → List Char
  | .node e children =>
    let tag := tagChars e.kind.toList
    let start := '<' :: (tag ++ (e.attributesText ++ Markup.tagEnd children.isEmpty))
    if children.isEmpty then start
    else start ++ (children.flatMap rendered ++ '<' :: '/' :: (tag ++ ['>']))

def tokens : Node → List Markup.Token
  | .node e children =>
    if children.isEmpty then [e.startTag true]
    else e.startTag false :: (children.flatMap tokens ++ [.endTag e.qname])

/-- What a tree is read back as. -/
def mirror : Node → Markup.Node
  | .node e children => .element e.tag e.mirrored (children.map mirror)

/-- A property of all elements of a tree holds of its root and of all elements of its children. -/
theorem forall_mem_all {p : Element → Prop} {e : Element} {children : List Node} :
    (∀ m ∈ (node e children).all, p m.element) ↔
      p e ∧ ∀ c ∈ children, ∀ m ∈ c.all, p m.element := by
  rw [all_node]
  simp only [List.forall_mem_cons, List.forall_mem_flatMap, element]

end Node

/-! ### Writing is recursion -/

/-- **Writing pending pieces is recursion over the first tree.** -/
theorem SourcePiece.write_tree (n : Node) (rest : List SourcePiece) :
    write (.tree n :: rest) = n.rendered ++ write rest := by
  induction n using Node.induction generalizing rest with
  | node e children ih =>
    have hchildren : ∀ rest', write (children.map SourcePiece.tree ++ rest') =
        children.flatMap Node.rendered ++ write rest' := by
      intro rest'
      induction children with
      | nil => rfl
      | cons c cs ihcs =>
        have hcs := ihcs fun d hd => ih d (List.mem_cons_of_mem c hd)
        rw [List.map_cons, List.cons_append, ih c List.mem_cons_self, hcs, List.flatMap_cons,
          List.append_assoc]
    have hfinish : write (.finish (tagChars e.kind.toList) :: rest) =
        '<' :: '/' :: (tagChars e.kind.toList ++ '>' :: write rest) := by
      rw [write]
    rw [write, Node.rendered]
    simp only [Node.children, Node.element, hchildren, hfinish]
    cases children with
    | nil => simp [Markup.tagEnd]
    | cons c cs => simp [Markup.tagEnd]

theorem Node.sourceText_toList (n : Node) :
    n.sourceText.toList = sourceOpening ++ (n.rendered ++ sourceClosing) := by
  rw [sourceText, String.toList_ofList, SourcePiece.write_tree, SourcePiece.write, List.append_nil]

/-! ### Cutting into tags -/

namespace Markup

/-- A text is cut into tokens, with any amount of fuel that is enough for its length. -/
def Reads (cs : List Char) (ts : List Token) : Prop :=
  ∀ fuel, cs.length ≤ fuel → Token.scanFrom fuel cs = .ok ts

theorem Reads.nil : Reads [] [] := by
  intro fuel _
  cases fuel <;> rfl

/-- A text is cut into its first token and those of the rest. -/
theorem Reads.cons {cs rest : List Char} {t : Token} {ts : List Token}
    (hnext : ∀ fuel, cs.length ≤ fuel → Token.next fuel cs = .ok (t, rest))
    (hshorter : rest.length < cs.length) (hrest : Reads rest ts) : Reads cs (t :: ts) := by
  intro fuel hfuel
  obtain ⟨fuel, rfl⟩ := Nat.exists_eq_add_of_le' (Nat.lt_of_le_of_lt (Nat.zero_le _)
    (Nat.lt_of_lt_of_le hshorter hfuel))
  cases cs with
  | nil => exact absurd hshorter (Nat.not_lt_zero _)
  | cons c more =>
    have hafter : Token.scanFrom fuel rest = .ok ts := hrest fuel (by omega)
    rw [Token.scanFrom, hnext (fuel + 1) hfuel]
    · simp only [ok_bind, hafter, pure_eq_ok]
    · simp

theorem length_le_writtenAttributes (attributes : List (List Char × List Char)) :
    attributes.length ≤ (writtenAttributes attributes).length := by
  induction attributes with
  | nil => exact Nat.le_refl 0
  | cons a rest ih =>
    simp only [writtenAttributes, List.flatMap_cons, List.length_append, List.length_cons,
      attributeText] at ih ⊢
    omega

/-- A name in a start tag ends before the first attribute or the end of the tag. -/
theorem afterName_eq_cons (attributes : List (List Char × List Char)) (closed : Bool)
    (rest : List Char) :
    ∃ d left, writtenAttributes attributes ++ (tagEnd closed ++ rest) = d :: left ∧
      isNameChar d = false ∧ d ≠ ':' := by
  cases attributes with
  | nil =>
    cases closed
    · exact ⟨'>', rest, rfl, by decide, by decide⟩
    · exact ⟨'/', '>' :: rest, rfl, by decide, by decide⟩
  | cons a more =>
    exact ⟨' ', _, rfl, by decide, by decide⟩

theorem next_name (fuel : Nat) {c : Char} (hc : isNameStart c = true) (cs : List Char) :
    Token.next fuel ('<' :: c :: cs) = readStartTag fuel (c :: cs) := by
  have hbang := ne_of_isNameStart hc (d := '!') (by decide)
  have hquestion := ne_of_isNameStart hc (d := '?') (by decide)
  have hslash := ne_of_isNameStart hc (d := '/') (by decide)
  rw [Token.next]
  · rintro rest heq
    injection heq with heq
    exact hbang heq
  · rintro rest heq
    injection heq with heq
    exact hbang heq
  · rintro rest heq
    injection heq with heq
    exact hquestion heq
  · rintro rest heq
    injection heq with heq
    exact hslash heq

/-- **A written start tag is read.** -/
theorem next_startTag {name : List Char} {attributes : List (List Char × List Char)}
    (hname : isName name = true) (hnames : ∀ a ∈ attributes, isName a.1 = true)
    (hvalues : ∀ a ∈ attributes, ∀ c ∈ a.2, isLegal c = true) (closed : Bool) (rest : List Char)
    {fuel : Nat} (hfuel : attributes.length < fuel) :
    Token.next fuel ('<' :: (name ++ (writtenAttributes attributes ++ (tagEnd closed ++ rest)))) =
      .ok (.startTag ⟨[], name⟩ (rawAttributes attributes) closed, rest) := by
  obtain ⟨d, left, hleft, hd, hcolon⟩ := afterName_eq_cons attributes closed rest
  have hattributes := readAttributes_written hnames hvalues hfuel closed rest
  have hqname := qname_append hname left hd hcolon
  rw [← hleft] at hqname
  obtain ⟨c, cs, rfl, hstart⟩ := exists_cons_of_isName hname
  rw [List.cons_append, next_name fuel hstart, ← List.cons_append, readStartTag]
  simp only [hqname, hattributes, ok_bind, pure_eq_ok]

/-- **A written end tag is read.** -/
theorem next_endTag {name : List Char} (hname : isName name = true) (rest : List Char)
    (fuel : Nat) :
    Token.next fuel ('<' :: '/' :: (name ++ '>' :: rest)) = .ok (.endTag ⟨[], name⟩, rest) := by
  have hqname := qname_append hname (d := '>') rest (by decide) (by decide)
  have hend : expectChars ['>'] (skipSpace ('>' :: rest)) = .ok rest := rfl
  show readEndTag (name ++ '>' :: rest) = _
  rw [readEndTag]
  simp only [hqname, hend, ok_bind, pure_eq_ok]

theorem reads_startTag {name : List Char} {attributes : List (List Char × List Char)}
    (hname : isName name = true) (hnames : ∀ a ∈ attributes, isName a.1 = true)
    (hvalues : ∀ a ∈ attributes, ∀ c ∈ a.2, isLegal c = true) (closed : Bool) {rest : List Char}
    {ts : List Token} (hrest : Reads rest ts) :
    Reads ('<' :: (name ++ (writtenAttributes attributes ++ (tagEnd closed ++ rest))))
      (.startTag ⟨[], name⟩ (rawAttributes attributes) closed :: ts) := by
  have hlength := length_le_writtenAttributes attributes
  refine Reads.cons ?_ ?_ hrest
  · intro fuel hfuel
    apply next_startTag hname hnames hvalues closed rest
    simp only [List.length_cons, List.length_append] at hfuel
    omega
  · simp only [List.length_cons, List.length_append]
    omega

theorem reads_endTag {name : List Char} (hname : isName name = true) {rest : List Char}
    {ts : List Token} (hrest : Reads rest ts) :
    Reads ('<' :: '/' :: (name ++ '>' :: rest)) (.endTag ⟨[], name⟩ :: ts) := by
  refine Reads.cons (fun fuel _ => next_endTag hname rest fuel) ?_ hrest
  simp only [List.length_cons, List.length_append]
  omega

end Markup

theorem Element.isName_sourcePairs (e : Element) :
    ∀ a ∈ e.sourcePairs, Markup.isName a.1 = true := by
  have hnames : ∀ name ∈ sourceAttributes, Markup.isName name.toList = true := by decide
  intro a ha
  obtain ⟨name, hname, rfl⟩ := List.mem_map.mp ha
  exact hnames name hname

theorem Element.IsLegal.sourcePairs {e : Element} (h : e.IsLegal) :
    ∀ a ∈ e.sourcePairs, ∀ c ∈ a.2, Markup.isLegal c = true := by
  intro a ha
  obtain ⟨name, hname, rfl⟩ := List.mem_map.mp ha
  exact h name hname

/-- **The text of a tree is cut into its tags.** -/
theorem Node.reads_rendered {n : Node} (hlegal : ∀ m ∈ n.all, m.element.IsLegal)
    {rest : List Char} {ts : List Markup.Token} (hrest : Markup.Reads rest ts) :
    Markup.Reads (n.rendered ++ rest) (n.tokens ++ ts) := by
  induction n using Node.induction generalizing rest ts with
  | node e children ih =>
    obtain ⟨he, hbelow⟩ := forall_mem_all.mp hlegal
    have htag := (isTag_tagChars e.kind.toList).markupName
    have hstart : ∀ closed {rest' ts'}, Markup.Reads rest' ts' →
        Markup.Reads ('<' :: (tagChars e.kind.toList ++
          (e.attributesText ++ (Markup.tagEnd closed ++ rest')))) (e.startTag closed :: ts') := by
      intro closed rest' ts' hrest'
      rw [e.attributesText_eq]
      exact Markup.reads_startTag htag e.isName_sourcePairs he.sourcePairs closed hrest'
    have hchildren : ∀ {rest' ts'}, Markup.Reads rest' ts' →
        Markup.Reads (children.flatMap rendered ++ rest') (children.flatMap tokens ++ ts') := by
      intro rest' ts' hrest'
      clear hstart
      induction children with
      | nil => exact hrest'
      | cons c cs ihcs =>
        have hcs := ihcs (fun d hd => ih d (List.mem_cons_of_mem c hd))
          (forall_mem_all.mpr ⟨he, fun d hd => hbelow d (List.mem_cons_of_mem c hd)⟩)
          fun d hd => hbelow d (List.mem_cons_of_mem c hd)
        rw [List.flatMap_cons, List.flatMap_cons, List.append_assoc, List.append_assoc]
        exact ih c List.mem_cons_self (hbelow c List.mem_cons_self) hcs
    rw [rendered, tokens]
    cases hempty : children.isEmpty with
    | true =>
      have h := hstart true hrest
      simpa using h
    | false =>
      have h := hstart false (hchildren (Markup.reads_endTag htag hrest))
      simpa [Element.qname] using h

/-! ### Building -/

namespace Markup

theorem tagContent_rawAttributes {attributes : List (List Char × List Char)}
    (hnames : ∀ a ∈ attributes, a.1 ≠ ['x', 'm', 'l', 'n', 's']) (content : TagContent) :
    tagContent content (rawAttributes attributes) =
      .ok { content with
        others := content.others ++
          attributes.map fun a => (⟨[], a.1⟩, String.ofList (readBack a.2)) } := by
  induction attributes generalizing content with
  | nil => simp [rawAttributes, tagContent]
  | cons a rest ih =>
    have hrest := ih fun b hb => hnames b (List.mem_cons_of_mem a hb)
    have ha := hnames a List.mem_cons_self
    rw [rawAttributes] at hrest ⊢
    rw [List.map_cons, tagContent]
    simp [attributeValue_escaped, ha, hrest]

/-- Attributes without qualifiers are resolved one by one if no name comes twice. -/
theorem resolveAttributes_unqualified (scope : Scope) {attributes : List (List Char × String)}
    (hnodup : (attributes.map Prod.fst).Nodup) (done : List Attribute)
    (hdone : ∀ b ∈ done, ∀ a ∈ attributes, b.name ≠ String.ofList a.1) :
    resolveAttributes scope done (attributes.map fun a => (⟨[], a.1⟩, a.2)) =
      .ok (done ++ attributes.map fun a => ⟨none, String.ofList a.1, a.2⟩) := by
  induction attributes generalizing done with
  | nil => simp [resolveAttributes]
  | cons a rest ih =>
    rw [List.map_cons, List.nodup_cons] at hnodup
    have hfresh : (done.any fun b => b.space == none && b.name == String.ofList a.1) = false := by
      rw [List.any_eq_false]
      intro b hb
      simp [hdone b hb a List.mem_cons_self]
    have hrest := ih hnodup.2 (done ++ [⟨none, String.ofList a.1, a.2⟩]) (by
      intro b hb c hc
      rcases List.mem_append.mp hb with hb | hb
      · exact hdone b hb c (List.mem_cons_of_mem a hc)
      · rw [List.mem_singleton] at hb
        subst hb
        intro heq
        apply hnodup.1
        rw [String.ofList_injective heq]
        exact List.mem_map_of_mem hc)
    rw [List.map_cons, resolveAttributes]
    simp only [String.ofList_nil, beq_self_eq_true, if_true, ok_bind, hfresh, Bool.false_eq_true,
      if_false, hrest]
    simp

end Markup

namespace Element

def frame (e : Element) (scope : Markup.Scope) (children : List Markup.Node) : Frame :=
  ⟨e.qname, e.mirrored, scope, children⟩

/-- The start tag of an element opens its frame; it declares nothing. -/
theorem frame_startTag (e : Element) (b : Builder) :
    b.frame e.qname (Markup.rawAttributes e.sourcePairs) = .ok (e.frame b.scope []) := by
  have hplain : ∀ name ∈ sourceAttributes, name.toList ≠ ['x', 'm', 'l', 'n', 's'] := by decide
  have hnames : ∀ a ∈ e.sourcePairs, a.1 ≠ ['x', 'm', 'l', 'n', 's'] := by
    intro a ha
    obtain ⟨name, hname, rfl⟩ := List.mem_map.mp ha
    exact hplain name hname
  have hcontent := Markup.tagContent_rawAttributes hnames ⟨[], []⟩
  have hnodup : ((e.sourcePairs.map fun a => (a.1, String.ofList (Markup.readBack a.2))).map
      Prod.fst).Nodup := by
    rw [List.map_map, sourcePairs, List.map_map]
    show (sourceAttributes.map String.toList).Nodup
    decide
  have hresolved := Markup.resolveAttributes_unqualified b.scope hnodup [] (by simp)
  rw [List.map_map, List.map_map] at hresolved
  rw [Builder.frame, if_neg (by simp [qname]), hcontent]
  simp only [ok_bind, List.nil_append]
  rw [show (e.sourcePairs.map fun a => ((⟨[], a.1⟩ : QName), String.ofList (Markup.readBack a.2))) =
    e.sourcePairs.map ((fun a : List Char × String => ((⟨[], a.1⟩ : QName), a.2)) ∘
      fun a => (a.1, String.ofList (Markup.readBack a.2))) from rfl, hresolved]
  rfl

end Element

/-- **The tags of a tree add its mirror** to the innermost open element. -/
theorem Node.run_tokens (n : Node) (f : Frame) (outer : List Frame) (top : List Markup.Node)
    (ts : List Markup.Token) :
    Builder.run ⟨f :: outer, top⟩ (n.tokens ++ ts) =
      Builder.run ⟨{ f with children := n.mirror :: f.children } :: outer, top⟩ ts := by
  induction n using Node.induction generalizing f outer ts with
  | node e children ih =>
    -- A frame keeps its children with the last one first, so they are added in reverse.
    have hchildren : ∀ (done : List Markup.Node) (ts' : List Markup.Token),
        Builder.run ⟨e.frame f.scope done :: f :: outer, top⟩ (children.flatMap tokens ++ ts') =
          Builder.run ⟨e.frame f.scope ((children.map mirror).reverse ++ done) :: f :: outer, top⟩
            ts' := by
      induction children with
      | nil => intro done ts'; rfl
      | cons c cs ihcs =>
        intro done ts'
        have hcs := ihcs (fun d hd => ih d (List.mem_cons_of_mem c hd)) (c.mirror :: done) ts'
        rw [List.flatMap_cons, List.append_assoc, ih c List.mem_cons_self]
        simpa [Element.frame] using hcs
    have hframe := e.frame_startTag ⟨f :: outer, top⟩
    rw [tokens, mirror]
    cases hempty : children.isEmpty with
    | true =>
      obtain rfl : children = [] := List.isEmpty_iff.mp hempty
      simp only [if_true, List.cons_append, List.nil_append, Builder.run, Builder.step,
        Element.startTag, List.isEmpty_cons, Bool.false_and, Bool.false_eq_true, if_false, hframe,
        ok_bind]
      rfl
    | false =>
      have hend : ∀ done : List Markup.Node,
          Builder.step ⟨e.frame f.scope done :: f :: outer, top⟩ (.endTag e.qname) =
            .ok (Builder.add ⟨f :: outer, top⟩ (e.frame f.scope done).close) := by
        intro done
        simp [Builder.step, Element.frame]
      simp only [Bool.false_eq_true, if_false, List.cons_append, List.append_assoc, Builder.run,
        Builder.step, Element.startTag, List.isEmpty_cons, Bool.false_and, hframe, ok_bind,
        pure_eq_ok]
      show Builder.run ⟨e.frame f.scope [] :: f :: outer, top⟩ _ = _
      rw [hchildren, List.nil_append, Builder.run, hend, ok_bind, List.append_nil]
      simp only [Builder.add, Element.frame, Frame.close, Markup.addNode, List.reverse_reverse]
      rfl

/-- **A written tree is read back as its mirror** in the root element. -/
theorem Node.readNodes_sourceText {n : Node} (hlegal : ∀ m ∈ n.all, m.element.IsLegal) :
    Markup.readNodes n.sourceText = .ok [.element wrapperTag [] [n.mirror]] := by
  let wrapper : QName := ⟨[], wrapperTag.toList⟩
  have hwrapper : Markup.isName wrapperTag.toList = true := by decide
  have hreads : Markup.Reads ('<' :: (wrapperTag.toList ++ (Markup.writtenAttributes [] ++
      (Markup.tagEnd false ++ (n.rendered ++ sourceClosing)))))
      (.startTag wrapper [] false :: (n.tokens ++ [Markup.Token.endTag wrapper])) := by
    apply Markup.reads_startTag hwrapper (by simp) (by simp) false
    apply n.reads_rendered hlegal
    exact Markup.reads_endTag hwrapper Markup.Reads.nil
  have hscan : Markup.Token.scan n.sourceText.toList =
      .ok (.startTag wrapper [] false :: (n.tokens ++ [Markup.Token.endTag wrapper])) := by
    have hbody : Markup.afterDeclaration n.sourceText.toList =
        .ok ('<' :: (wrapperTag.toList ++ (Markup.writtenAttributes [] ++
          (Markup.tagEnd false ++ (n.rendered ++ sourceClosing))))) := by
      rw [n.sourceText_toList]
      rfl
    rw [Markup.Token.scan, hbody, ok_bind]
    exact hreads _ (Nat.le_refl _)
  have hrun := n.run_tokens ⟨wrapper, [], [], []⟩ [] [] [.endTag wrapper]
  rw [Markup.readNodes, hscan, ok_bind, Markup.nodesOfTokens, Builder.run]
  show (do
    let b ← Builder.run ⟨[⟨wrapper, [], [], []⟩], []⟩ (n.tokens ++ [Markup.Token.endTag wrapper])
    _) = _
  rw [hrun]
  rfl

end ScreenInspector
