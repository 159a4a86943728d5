/-
  ScreenInspector/Proofs/RecursiveTraversals.lean
  ===============================================
  **Every traversal of a tree is the recursion over it.**

  The nodes, the outline, the index and the source text of a tree are each made by a loop of its
  own, with other things on its list of what is still to do.  All of them go through the tree as
  `preorder` does, which is plain recursion (`all_eq_preorder`).  The lines of an outline are at the
  depths that recursion passes down (`outline_eq_outlineFrom`), which are the lengths of the paths
  in the index (`outline_eq_map_withPaths`).

  That the source text names the nodes in the same order is read off the text itself: it is cut
  at its quotes, and the values that follow ` ref=` are resolved.  A tag leaves text without quotes
  behind, so reading a tree begins with some such text and ends with some (`refValues_rendered`);
  nothing is asked of the characters of kinds, references and values.
-/
import ScreenInspector.Proofs.NodePaths
import ScreenInspector.Proofs.SourceReading

namespace ScreenInspector

namespace Node

/-! ### Nodes -/

/-- A tree and the trees in it by recursion: itself, then those of its children, from the first
to the last. -/
def preorder : Node → List Node
  | .node e children => .node e children :: children.flatMap preorder

/-- The lines of a tree by recursion, with `depth` trees around it. -/
def outlineFrom (depth : Nat) : Node → List OutlineLine
  | .node e children =>
    ⟨depth, e.reference, e.title⟩ :: children.flatMap fun c => outlineFrom (depth + 1) c

theorem all_eq_preorder (n : Node) : n.all = n.preorder := by
  induction n using Node.induction with
  | node e children ih =>
    rw [all_node, preorder, List.flatMap_congr ih]

/-! ### Outlines -/

/-- The depth at which a walk finds a node is the length of the path on which it finds it. -/
theorem withDepths_eq_map_withPaths (n : Node) :
    n.withDepths = n.withPaths.map (Prod.map List.length id) := by
  have hlength := map_walk List.length (fun (path : ReversedPath) i => i :: path)
    (fun depth _ => depth + 1) (fun path i => List.length_cons) [([], n)]
  rw [withPaths, List.map_map, withDepths]
  rw [List.map_singleton, Prod.map_apply, List.length_nil, id_eq] at hlength
  rw [← hlength]
  apply List.map_congr_left
  rintro ⟨path, m⟩ _
  simp only [Prod.map_apply, Function.comp_apply, List.length_reverse]

theorem outline_eq_map_withPaths (n : Node) :
    n.outline = n.withPaths.map fun (path, m) => ⟨path.length, m.reference, m.element.title⟩ := by
  rw [outline, withDepths_eq_map_withPaths, List.map_map]
  rfl

/-- **An outline is the recursion over the tree** that adds one to the depth for the children. -/
theorem outline_eq_outlineFrom (n : Node) : n.outline = n.outlineFrom 0 := by
  have hshifted : ∀ depth, (n.withPaths.map fun (path, m) =>
      (⟨depth + path.length, m.reference, m.element.title⟩ : OutlineLine)) =
        n.outlineFrom depth := by
    induction n using Node.induction with
    | node e children ih =>
      intro depth
      have hchild : ∀ c ∈ children, ∀ k : Nat,
          ((c.withPaths.map (Prod.map (k :: ·) id)).map fun (path, m) =>
            (⟨depth + path.length, m.reference, m.element.title⟩ : OutlineLine)) =
          c.outlineFrom (depth + 1) := by
        intro c hc k
        rw [← ih c hc (depth + 1), List.map_map]
        apply List.map_congr_left
        rintro ⟨path, m⟩ _
        simp only [Function.comp_apply, Prod.map_apply, List.length_cons, id_eq]
        rw [Nat.add_assoc, Nat.add_comm 1]
      rw [withPaths_node, outlineFrom, List.map_cons, List.map_flatMap]
      congr 1
      -- The positions of the children are not part of the lines.
      have hzip : (children.zipIdx.flatMap fun p => p.1.outlineFrom (depth + 1)) =
          children.flatMap fun c => c.outlineFrom (depth + 1) := by
        rw [← List.flatMap_map, List.zipIdx_map_fst]
      rw [← hzip]
      apply List.flatMap_congr
      rintro ⟨c, k⟩ hmem
      exact hchild c (List.mem_of_getElem? (List.mem_zipIdx_iff_getElem?.mp hmem)) k
  rw [outline_eq_map_withPaths, ← hshifted 0]
  simp only [Nat.zero_add]

end Node

/-! ### References in a text -/

namespace Markup

/-- The values between quotes in a text that was cut at its quotes, each with what stands before
it since the value before. -/
def quoted : List (List Char) → List (List Char × List Char)
  | before :: value :: rest => (before, value) :: quoted rest
  | _ => []

/-- The values of the attributes `ref` of a text as they stand between the quotes. -/
def refValues (text : List Char) : List (List Char) :=
  ((quoted (text.splitOn '\x22')).filter fun a => " ref=".toList.isSuffixOf a.1).map Prod.snd

/-- The references that the attributes `ref` of a text stand for, in order. -/
def writtenReferences (text : String) : Except Fault (List String) :=
  (refValues text.toList).mapM fun value => do
    let ps ← pieces value
    pure (String.ofList (ps.map Piece.char))

theorem splitOn_append_quote {before : List Char} (h : '\x22' ∉ before) (rest : List Char) :
    (before ++ '\x22' :: rest).splitOn '\x22' = before :: rest.splitOn '\x22' := by
  apply List.splitOnP_append_cons_of_forall_mem
  · intro c hc
    rw [beq_eq_false_iff_ne]
    rintro rfl
    exact h hc
  · rfl

theorem refValues_of_not_mem {text : List Char} (h : '\x22' ∉ text) : refValues text = [] := by
  have hwhole : text.splitOn '\x22' = [text] := by
    apply List.splitOnP_eq_singleton
    intro c hc
    rw [beq_eq_false_iff_ne]
    rintro rfl
    exact h hc
  rw [refValues, hwhole]
  rfl

/-- The first value between quotes counts if it is that of an attribute `ref`. -/
theorem refValues_quoted (before value : List Char) (hbefore : '\x22' ∉ before)
    (hvalue : '\x22' ∉ value) (rest : List Char) :
    refValues (before ++ '\x22' :: (value ++ '\x22' :: rest)) =
      (if " ref=".toList.isSuffixOf before then [value] else []) ++ refValues rest := by
  rw [refValues, splitOn_append_quote hbefore, splitOn_append_quote hvalue, quoted,
    List.filter_cons]
  split
  · rfl
  · rfl

theorem quote_not_mem_escaped (value : List Char) : '\x22' ∉ escaped value := by
  intro hmem
  obtain ⟨c, -, hc⟩ := List.mem_flatMap.mp hmem
  cases hmarkup : isMarkup c with
  | true =>
    rcases eq_of_isMarkup hmarkup with rfl | rfl | rfl | rfl | rfl <;> exact absurd hc (by decide)
  | false =>
    rw [escapedChar_of_not_isMarkup hmarkup, List.mem_singleton] at hc
    subst hc
    exact absurd hmarkup (by decide)

/-- An attribute of a source text counts if its name is `ref`, whatever stands before it. -/
theorem refValues_attributeText {name : String} (hname : name ∈ sourceAttributes)
    {before : List Char} (hbefore : '\x22' ∉ before) (value rest : List Char) :
    refValues (before ++ (attributeText name.toList value ++ rest)) =
      (if name = "ref" then [escaped value] else []) ++ refValues rest := by
  have hquote : ∀ name ∈ sourceAttributes, '\x22' ∉ name.toList := by decide
  have hsuffix : ∀ name ∈ sourceAttributes,
      " ref=".toList.isSuffixOf (before ++ ' ' :: (name.toList ++ ['='])) = decide (name = "ref") := by
    simp [sourceAttributes, List.isSuffixOf, List.isPrefixOf]
  have hbefore' : '\x22' ∉ before ++ ' ' :: (name.toList ++ ['=']) := by
    simp [hbefore, hquote name hname]
  have htext : before ++ (attributeText name.toList value ++ rest) =
      (before ++ ' ' :: (name.toList ++ ['='])) ++ '\x22' :: (escaped value ++ '\x22' :: rest) := by
    simp [attributeText]
  rw [htext, refValues_quoted _ _ hbefore' (quote_not_mem_escaped value), hsuffix name hname]
  simp only [decide_eq_true_eq]

/-- Of the six attributes of an element one is called `ref`. -/
theorem refValues_attributesText (e : Element) {before : List Char} (hbefore : '\x22' ∉ before)
    (rest : List Char) :
    refValues (before ++ (e.attributesText ++ rest)) =
      escaped e.reference.toList :: refValues rest := by
  -- Behind the first attribute nothing stands between one attribute and the next.
  have hnext : ∀ name ∈ sourceAttributes, ∀ left,
      refValues (attributeText name.toList (e.sourceValue name).toList ++ left) =
        (if name = "ref" then [escaped (e.sourceValue name).toList] else []) ++ refValues left := by
    intro name hname left
    exact refValues_attributeText hname List.not_mem_nil _ left
  simp only [Element.attributesText, sourceAttributes, List.flatMap_cons, List.flatMap_nil,
    List.append_nil, List.append_assoc]
  rw [refValues_attributeText (by decide) hbefore, hnext "label" (by decide),
    hnext "value" (by decide), hnext "ref" (by decide), hnext "id" (by decide),
    hnext "shown" (by decide)]
  rfl

end Markup

namespace Node

open Markup (refValues escaped tagEnd pieces_escaped writtenPiece Piece writtenReferences
  refValues_attributesText refValues_quoted refValues_of_not_mem)

/-- **The references of a written tree** are those of its nodes; behind it the reader is again
before some text without quotes. -/
theorem refValues_rendered (n : Node) {before : List Char} (hbefore : '\x22' ∉ before) :
    ∃ after, '\x22' ∉ after ∧ ∀ rest, refValues (before ++ (n.rendered ++ rest)) =
      n.preorder.map (fun m => escaped m.reference.toList) ++ refValues (after ++ rest) := by
  induction n using Node.induction generalizing before with
  | node e children ih =>
    have htag : '\x22' ∉ tagChars e.kind.toList :=
      (isTag_tagChars e.kind.toList).not_mem (by decide)
    have hopen : '\x22' ∉ before ++ '<' :: tagChars e.kind.toList := by
      simp [hbefore, htag]
    have hchildren : ∀ between, '\x22' ∉ between → ∃ after, '\x22' ∉ after ∧ ∀ rest,
        refValues (between ++ (children.flatMap rendered ++ rest)) =
          (children.flatMap preorder).map (fun m => escaped m.reference.toList) ++
            refValues (after ++ rest) := by
      clear hopen
      induction children with
      | nil =>
        intro between hbetween
        exact ⟨between, hbetween, fun rest => rfl⟩
      | cons c cs ihcs =>
        intro between hbetween
        obtain ⟨middle, hmiddle, hc⟩ := ih c List.mem_cons_self hbetween
        obtain ⟨after, hafter, hcs⟩ :=
          ihcs (fun d hd => ih d (List.mem_cons_of_mem c hd)) middle hmiddle
        refine ⟨after, hafter, fun rest => ?_⟩
        rw [List.flatMap_cons, List.append_assoc, hc, hcs, List.flatMap_cons, List.map_append,
          List.append_assoc]
    cases hempty : children.isEmpty with
    | true =>
      obtain rfl : children = [] := List.isEmpty_iff.mp hempty
      refine ⟨['/', '>'], by decide, fun rest => ?_⟩
      have hattributes := refValues_attributesText e hopen (tagEnd true ++ rest)
      simpa [rendered, preorder, tagEnd, reference, element] using hattributes
    | false =>
      obtain ⟨middle, hmiddle, hbelow⟩ := hchildren ['>'] (by decide)
      refine ⟨middle ++ ('<' :: '/' :: (tagChars e.kind.toList ++ ['>'])), by simp [hmiddle, htag],
        fun rest => ?_⟩
      have hattributes := refValues_attributesText e hopen (tagEnd false ++
        (children.flatMap rendered ++ ('<' :: '/' :: (tagChars e.kind.toList ++ ['>']) ++ rest)))
      rw [tagEnd, if_neg Bool.false_ne_true, hbelow] at hattributes
      simpa [rendered, preorder, hempty, tagEnd, reference, element]
        using hattributes

/-- **The references in a source text** are those of the nodes, whatever characters they hold. -/
theorem writtenReferences_sourceText (n : Node) :
    writtenReferences n.sourceText = .ok (n.preorder.map reference) := by
  have hdeclaration : ∀ rest, refValues (sourceOpening ++ rest) =
      refValues ("?><views>".toList ++ rest) := by
    intro rest
    have hopening : sourceOpening = "<?xml version=".toList ++ '\x22' :: ("1.0".toList ++ '\x22' ::
        (" encoding=".toList ++ '\x22' :: ("UTF-8".toList ++ '\x22' :: "?><views>".toList))) := by
      decide
    have hversion : " ref=".toList.isSuffixOf "<?xml version=".toList = false := by decide
    have hencoding : " ref=".toList.isSuffixOf " encoding=".toList = false := by decide
    rw [hopening]
    simp only [List.append_assoc, List.cons_append]
    rw [refValues_quoted _ _ (by decide) (by decide), hversion,
      refValues_quoted _ _ (by decide) (by decide), hencoding]
    rfl
  have hplain : '\x22' ∉ "?><views>".toList := by decide
  obtain ⟨after, hafter, htree⟩ := refValues_rendered n hplain
  have hvalues : refValues n.sourceText.toList =
      n.preorder.map fun m => escaped m.reference.toList := by
    rw [n.sourceText_toList, hdeclaration, htree, refValues_of_not_mem, List.append_nil]
    rw [List.mem_append]
    rintro (h | h)
    · exact hafter h
    · exact absurd h (by decide)
  rw [writtenReferences, hvalues]
  induction n.preorder with
  | nil => rfl
  | cons m rest ih =>
    have hm : (m.reference.toList.map writtenPiece).map Piece.char = m.reference.toList := by
      rw [List.map_map]
      exact List.map_id _
    rw [List.map_cons, List.mapM_cons, ih, pieces_escaped, ok_bind, hm, String.ofList_toList]
    rfl

end Node

/-! ### Trees of snapshots -/

/-- A line of an outline shows a node: it has the reference and the title of the node, and its
depth is the length of the path that the index has for that reference. -/
structure Tree.Shows (t : Tree) (line : Node.OutlineLine) (m : Node) : Prop where
  reference : line.reference = m.reference
  title : line.title = m.element.title
  depth : ∃ path, t.index.lookup m.reference = some path ∧ t.root.at? path = some m ∧
    line.depth = path.length

theorem Tree.forall₂_shows_outline {root : Node} {served : Option String} {kind : String} {t : Tree}
    (h : assemble root served kind = .ok t) : List.Forall₂ t.Shows t.outline t.nodes := by
  rw [outline, Node.outline_eq_map_withPaths, nodes, ← Node.map_snd_withPaths,
    List.forall₂_map_left_iff, List.forall₂_map_right_iff, List.forall₂_same]
  rintro ⟨path, m⟩ hm
  have hpath := Node.mem_withPaths.mp hm
  exact ⟨rfl, rfl, path, (lookup_index_eq_some_iff h).mpr ⟨m, hpath, rfl⟩, hpath, rfl⟩

/-- **The traversals of a tree are recursions and agree**: its nodes, its outline and its source
text come in one order, and the outline of a snapshot shows its nodes at the depths of the index. -/
theorem traversals_eq_recursions (root : Node) :
    root.all = root.preorder ∧
    root.outline = root.outlineFrom 0 ∧
    root.sourceText.toList = sourceOpening ++ (root.rendered ++ sourceClosing) ∧
    root.outline.map Node.OutlineLine.reference = root.preorder.map Node.reference ∧
    Markup.writtenReferences root.sourceText = .ok (root.preorder.map Node.reference) ∧
    ∀ served kind t, Tree.assemble root served kind = .ok t →
      t.nodes = root.preorder ∧ t.outline = root.outline ∧
        List.Forall₂ t.Shows t.outline root.preorder := by
  have hreferences : root.outline.map Node.OutlineLine.reference =
      root.preorder.map Node.reference := by
    rw [Node.outline_eq_map_withPaths, ← root.all_eq_preorder, ← root.map_snd_withPaths,
      List.map_map, List.map_map]
    rfl
  refine ⟨root.all_eq_preorder, root.outline_eq_outlineFrom, root.sourceText_toList, hreferences,
    root.writtenReferences_sourceText, ?_⟩
  intro served kind t h
  have hshows := Tree.forall₂_shows_outline h
  obtain rfl := (Tree.assemble_ok h).1
  rw [Tree.nodes, Node.all_eq_preorder] at hshows
  exact ⟨t.root.all_eq_preorder, rfl, hshows⟩

/-- A list of two texts, the first of them with quotes in its reference. -/
def quotedList : Node :=
  .node ⟨"list", "List", none, [], none, none⟩
    [.node ⟨"\x22first\x22 & last", "Text", none, [], none, none⟩ [],
      .node ⟨"second", "Text", none, [], none, none⟩ []]

/-- A window with a list in it and a text below the list. -/
def listWindow : Node :=
  .node ⟨"root", "Window", some ⟨0, 0, 10, 10⟩, [], none, none⟩
    [quotedList, .node ⟨"below", "Text", none, [], none, none⟩ []]

/-- The texts of the list come before the one below it. -/
theorem traversals_eq_recursions_nested :
    listWindow.preorder.map Node.reference =
        ["root", "list", "\x22first\x22 & last", "second", "below"] ∧
      ∃ t, Tree.ofNode listWindow = .ok t ∧
        List.Forall₂ t.Shows t.outline listWindow.preorder := by
  have hpreorder : listWindow.preorder.map Node.reference =
      ["root", "list", "\x22first\x22 & last", "second", "below"] := by
    simp [listWindow, quotedList, Node.preorder, Node.reference, Node.element]
  obtain ⟨t, ht⟩ : ∃ t, Tree.ofNode listWindow = .ok t :=
    ⟨_, Tree.assemble_eq_ok_iff.mpr
      ⟨rfl, by rw [Node.all_eq_preorder, hpreorder]; decide, by simp, rfl⟩⟩
  obtain ⟨-, -, -, -, -, hshown⟩ := traversals_eq_recursions listWindow
  exact ⟨hpreorder, t, ht, (hshown none Tree.webViewKind t ht).2.2⟩

end ScreenInspector
