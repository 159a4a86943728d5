/-
  ScreenInspector/Proofs/SourceStructure.lean
  ===========================================
  **The source text of a tree has the structure of the tree**, whatever its values are.

  A skeleton is what is left of a tree when the values of its attributes are forgotten: names,
  nesting and order, and for documents also where something stands that is no element.  The
  skeleton of the document that a source text writes is the root element around the skeleton of the
  tree (`readNodes_skeleton`).  That of the tree is made from the tags alone, so no value can open,
  close or hide an element.
-/
import ScreenInspector.Proofs.SourceReading

namespace ScreenInspector

/-- Names, nesting and order of elements, each with the namespaces and names of its attributes. -/
inductive Skeleton where
  | element (name : String) (attributes : List (Option String × String)) (inside : List Skeleton)
  | other

def Markup.Node.skeleton : Markup.Node → Skeleton
  | .element name attributes children =>
    .element name (attributes.map fun a => (a.space, a.name)) (children.map skeleton)
  | .text _ => .other
  | .comment => .other
  | .instruction => .other

/-- One element for each node, with its tag and the six attributes. -/
def Node.skeleton : Node → Skeleton
  | .node e children =>
    .element e.tag [(none, "name"), (none, "label"), (none, "value"), (none, "ref"), (none, "id"),
      (none, "shown")] (children.map skeleton)

theorem Element.map_name_mirrored (e : Element) :
    (e.mirrored.map fun a => (a.space, a.name)) = sourceAttributes.map fun name => (none, name) := by
  rw [mirrored, sourcePairs, List.map_map, List.map_map]
  apply List.map_congr_left
  intro name _
  simp

theorem Node.skeleton_mirror (n : Node) : n.mirror.skeleton = n.skeleton := by
  induction n using Node.induction with
  | node e children ih =>
    have hchildren : (children.map mirror).map Markup.Node.skeleton = children.map skeleton := by
      rw [List.map_map]
      apply List.map_congr_left
      intro c hc
      exact ih c hc
    rw [mirror, Markup.Node.skeleton, skeleton, hchildren, e.map_name_mirrored]
    rfl

/-- **A source text is read as a document with the structure of the tree.**  It has the root element,
and in this one element for each node, nested and ordered as the nodes are, with the tag of the node
and the six attributes; and nothing else.  So the values do not show in the structure: whatever
others the nodes have, it is the same. -/
theorem Node.readNodes_skeleton (n : Node) (hlegal : ∀ m ∈ n.all, m.element.IsLegal) :
    ∃ document, Markup.readNodes n.sourceText = .ok document ∧
      document.map Markup.Node.skeleton = [.element "views" [] [n.skeleton]] ∧
      ∀ other : Node, other.skeleton = n.skeleton → (∀ m ∈ other.all, m.element.IsLegal) →
        ∃ document', Markup.readNodes other.sourceText = .ok document' ∧
          document'.map Markup.Node.skeleton = document.map Markup.Node.skeleton := by
  have hskeleton : ∀ m : Node, [Markup.Node.element wrapperTag [] [m.mirror]].map
      Markup.Node.skeleton = [.element "views" [] [m.skeleton]] := by
    intro m
    simp [Markup.Node.skeleton, m.skeleton_mirror, wrapperTag]
  refine ⟨_, readNodes_sourceText hlegal, hskeleton n, ?_⟩
  intro other hother hlegal'
  refine ⟨_, readNodes_sourceText hlegal', ?_⟩
  rw [hskeleton, hskeleton, hother]

instance (e : Element) : Decidable e.IsLegal :=
  decidable_of_iff (sourceAttributes.all (fun name =>
    (e.sourceValue name).toList.all Markup.isLegal) = true) (by simp [Element.IsLegal])

/-- A frame and a button whose values look like tags, comments and line ends. -/
def deceptive : Node :=
  .node ⟨"</views>", "android.widget.Frame", none,
      [("id", "\x22/><Frame id=\x22"), ("label", "<!-- ]]> &amp; <?xml ")], none, none⟩
    [.node ⟨"a\r\nb\t'c'", "Button<br/>", none, [("value", "\x22>\n</Frame></views>")], none, none⟩
      []]

/-- Values that look like tags are read as values. -/
theorem readNodes_deceptive :
    (∀ m ∈ deceptive.all, m.element.IsLegal) ∧
    ∃ document, Markup.readNodes deceptive.sourceText = .ok document ∧
      document.map Markup.Node.skeleton = [.element "views" []
        [.element "Frame" (sourceAttributes.map fun name => (none, name))
          [.element "Button_br__" (sourceAttributes.map fun name => (none, name)) []]]] := by
  have hlegal : ∀ m ∈ deceptive.all, m.element.IsLegal := by
    simp only [deceptive, Node.forall_mem_all, List.forall_mem_cons]
    exact ⟨by decide, by decide, by simp⟩
  obtain ⟨document, hread, hskeleton, -⟩ := deceptive.readNodes_skeleton hlegal
  refine ⟨hlegal, document, hread, hskeleton.trans ?_⟩
  have hframe : tagName "android.widget.Frame" = "Frame" := by decide
  have hbutton : tagName "Button<br/>" = "Button_br__" := by decide
  simp [deceptive, Node.skeleton, Element.tag, hframe, hbutton, sourceAttributes]

end ScreenInspector
