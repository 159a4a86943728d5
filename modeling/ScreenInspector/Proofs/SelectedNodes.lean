/-
  ScreenInspector/Proofs/SelectedNodes.lean
  =========================================
  **What a selection stands for.**

  The pointer selects nodes, an expression selects whatever reference its only element has.  A
  source text that came with the payload may hold elements that are no nodes, and one that was
  written from the nodes has spaces for the tabs and line ends of a reference.  So there are foreign
  references (`Tree.IsForeign`), and a selection is one of these or stands for exactly one node
  (`Inspector.selection_stands`).  Every turn preserves that the selection was offered by the
  current tree (`Offered.turn`).  The last theorem is a run that ends with a selection and no
  selected node.
-/
import ScreenInspector.Device.Playback
import ScreenInspector.Proofs.AcceptedPayloads
import ScreenInspector.Proofs.InspectorStates
import ScreenInspector.Proofs.ListedTargets
import ScreenInspector.Proofs.QueryableTrees
import ScreenInspector.Proofs.SourceValues

namespace ScreenInspector

open Markup (Document Label)

/-! ### Foreign references -/

/-- A reference stands in the source text of a tree that has no node for it. -/
def Tree.IsForeign (t : Tree) (reference : String) : Prop :=
  (∃ d m, Document.read t.source = .ok d ∧ d.attribute? m "ref" = some reference) ∧
    ∀ n ∈ t.nodes, n.reference ≠ reference

/-- Answers consist of references of the source text. -/
theorem Evaluator.attribute?_of_mem_answer {source : String} {asked : Questions}
    {expression : String} {found : List String} {reference : String}
    (h : (ofSource source).answer asked expression = .ok found) (hmem : reference ∈ found) :
    ∃ d m, Document.read source = .ok d ∧ d.attribute? m "ref" = some reference := by
  simp only [ofSource, answerIn] at h
  split at h
  · cases h
  · split at h
    · cases h
    next d hread =>
      split at h
      · cases h
      next ids hids =>
        obtain rfl := Except.ok.inj h
        rw [references_eq_filterMap] at hmem
        obtain ⟨m, -, hm⟩ := List.mem_filterMap.mp hmem
        exact ⟨d, m, hread, hm⟩
      · cases h

theorem Element.reference?_mirrored (e : Element) (tag : String) :
    (Label.element tag e.mirrored).reference? = some (e.readValue "ref") := by
  rw [mirrored_eq]
  rfl

/-- A written source text has the references of the nodes as they are read back. -/
theorem Node.exists_reference_of_attribute? {root : Node} {d : Document}
    (hread : Document.read root.sourceText = .ok d) {m : Nat} {reference : String}
    (h : d.attribute? m "ref" = some reference) :
    ∃ n ∈ root.all, n.element.readValue "ref" = reference := by
  have hlegal : ∀ n ∈ root.all, n.element.IsLegal := by
    apply root.readNodes_sourceText_iff.mp
    cases hnodes : Markup.readNodes root.sourceText with
    | error fault => simp [Document.read, hnodes, Except.map] at hread
    | ok nodes => exact ⟨nodes, rfl⟩
  rw [read_sourceText hlegal] at hread
  obtain rfl := Except.ok.inj hread
  rw [← Document.reference?_label] at h
  by_cases hinside : m < root.sourceDocument.size
  · have hlabel : root.sourceDocument.label m ∈
        (List.range root.sourceDocument.size).map root.sourceDocument.label :=
      List.mem_map_of_mem (List.mem_range.mpr hinside)
    rw [labels_sourceDocument] at hlabel
    -- The document has no reference, and neither has the root element.
    rcases List.mem_cons.mp hlabel with hdocument | hlabel
    · rw [hdocument] at h
      cases h
    · rcases List.mem_cons.mp hlabel with hwrapper | hlabel
      · rw [hwrapper] at h
        cases h
      · obtain ⟨n, hn, hlabel⟩ := List.mem_map.mp hlabel
        rw [← hlabel, Element.reference?_mirrored] at h
        exact ⟨n, hn, Option.some.inj h⟩
  · have hcomment : root.sourceDocument.label m = .comment := by
      rw [Document.label, Array.getElem?_eq_none (Nat.le_of_not_lt hinside)]
    rw [hcomment] at h
    cases h

namespace Tree

variable {t : Tree} {reference : String}

/-- **Nothing is foreign to a written source text** if the references have neither tabs nor line
ends. -/
theorem not_isForeign_of_written (hsource : t.source = t.root.sourceText)
    (hplain : ∀ n ∈ t.nodes, ∀ c ∈ n.reference.toList, Markup.isLayout c = false) :
    ¬ t.IsForeign reference := by
  rintro ⟨⟨d, m, hread, hm⟩, hnone⟩
  rw [hsource] at hread
  obtain ⟨n, hn, hvalue⟩ := Node.exists_reference_of_attribute? hread hm
  have hreference : n.element.sourceValue "ref" = n.reference := rfl
  apply hnone n hn
  rw [← hvalue, (n.element.readValue_eq_iff "ref").mpr (hplain n hn), hreference]

theorem Offers.node_or_foreign (h : t.Offers reference) :
    (∃ n ∈ t.nodes, n.reference = reference) ∨
      t.IsForeign reference ∧ ∃ expression, t.evaluator.answer [] expression = .ok [reference] := by
  by_cases hnode : ∃ n ∈ t.nodes, n.reference = reference
  · exact Or.inl hnode
  · rcases h with h | ⟨expression, hanswer⟩
    · exact absurd h hnode
    · have hattribute := Evaluator.attribute?_of_mem_answer hanswer (List.mem_singleton_self _)
      refine Or.inr ⟨⟨hattribute, ?_⟩, expression, hanswer⟩
      intro n hn heq
      exact hnode ⟨n, hn, heq⟩

end Tree

namespace Inspector

variable {σ : Type} {d : Device σ} {i i' : Inspector} {c c' : Connection σ} {input : Input}

/-- The current tree was accepted and offered what is selected. -/
structure Offered (i : Inspector) : Prop where
  accepted : ∀ t, i.tree? = some t → ∃ payload kind, Tree.ofPayload payload kind = .ok t
  offered : ∀ s, i.latestSelection = some s → ∃ t, i.tree? = some t ∧ t.Offers s.reference

theorem accepted_of_ofAnswer? {kind : String} {answer : Except InspectionError Snapshot}
    {l : Loaded} (h : Loaded.ofAnswer? kind answer = some l) :
    ∃ payload, Tree.ofPayload payload kind = .ok l.tree := by
  cases answer with
  | error fault => cases h
  | ok s =>
    cases htree : Tree.ofPayload s.payload kind with
    | error cause => simp [Loaded.ofAnswer?, htree] at h
    | ok t =>
      simp only [Loaded.ofAnswer?, htree, Option.some.injEq] at h
      subst h
      exact ⟨s.payload, htree⟩

/-- **Every turn preserves it.** -/
theorem Offered.turn (h : Offered i) (ht : Turn d i c input i' c') : Offered i' := by
  cases ht with
  | shown width height => exact ⟨h.accepted, h.offered⟩
  | locked => exact ⟨h.accepted, h.offered⟩
  | searchShown => exact ⟨h.accepted, h.offered⟩
  | @selected e t reference notKey tree_eq offers =>
    refine ⟨h.accepted, ?_⟩
    rintro s hs
    obtain rfl := Option.some.inj hs
    exact ⟨t, tree_eq, offers⟩
  | deselected notKey => exact ⟨h.accepted, by simp⟩
  | kept notKey tapped => exact ⟨h.accepted, h.offered⟩
  | @loaded e r c' l notKey tapped answer_eq =>
    refine ⟨?_, by simp [loading]⟩
    rintro t ht
    obtain rfl := Option.some.inj ht
    obtain ⟨payload, htree⟩ := accepted_of_ofAnswer? answer_eq
    exact ⟨payload, _, htree⟩
  | notLoaded notKey tapped answer_eq => exact ⟨h.accepted, h.offered⟩

theorem offered_run (d : Device σ) (configuration : Configuration) (state : σ)
    (inputs : List Input) : Offered (run d configuration state inputs).1 := by
  induction inputs using List.reverseRecOn with
  | nil => exact ⟨by simp [run, new, tree?], by simp [run, new]⟩
  | append_singleton inputs input ih =>
    rw [run_concat]
    exact ih.turn (receive_turn d _ (run d configuration state inputs).2 input)

/-- **What a selection stands for**, after every run with every device.  The selected node is the
node of the current tree with the selected reference.  There is none iff the reference is foreign to
the tree, and then an expression was answered with it alone.  A tree with a source text of its own
nodes, whose references have neither tabs nor line ends, always has a selected node. -/
theorem selection_stands (d : Device σ) {configuration : Configuration} {state : σ}
    {inputs : List Input} (hrun : run d configuration state inputs = (i, c)) {s : Selection}
    (h : i.selection? = some s) :
    ∃ t, i.tree? = some t ∧
      (∀ n, i.selectedNode? = some n ↔ n ∈ t.nodes ∧ n.reference = s.reference) ∧
      (i.selectedNode? = none ↔ t.IsForeign s.reference) ∧
      (i.selectedNode? = none →
        ∃ expression, t.evaluator.answer [] expression = .ok [s.reference]) ∧
      (t.source = t.root.sourceText →
        (∀ n ∈ t.nodes, ∀ c ∈ n.reference.toList, Markup.isLayout c = false) →
        i.selectedNode?.isSome = true) := by
  have hoffered := offered_run d configuration state inputs
  rw [hrun] at hoffered
  obtain ⟨t, htree, hoffers⟩ := hoffered.offered s (Option.filter_eq_some_iff.mp h).1
  obtain ⟨payload, kind, hpayload⟩ := hoffered.accepted t htree
  obtain ⟨root, hassemble⟩ := Tree.assemble_of_ofPayload hpayload
  have hfind : i.selectedNode? = t.find? s.reference := by
    simp [selectedNode?, h, htree]
  have hnode : ∀ n, i.selectedNode? = some n ↔ n ∈ t.nodes ∧ n.reference = s.reference := by
    intro n
    rw [hfind]
    exact Tree.find?_eq_some_iff hassemble
  have hnone : i.selectedNode? = none ↔ ∀ n ∈ t.nodes, n.reference ≠ s.reference := by
    rw [Option.eq_none_iff_forall_ne_some]
    exact ⟨fun hnone n hn heq => hnone n ((hnode n).mpr ⟨hn, heq⟩),
      fun hnone n hn => hnone n ((hnode n).mp hn).1 ((hnode n).mp hn).2⟩
  have hforeign : i.selectedNode? = none → t.IsForeign s.reference ∧
      ∃ expression, t.evaluator.answer [] expression = .ok [s.reference] := by
    intro hmissing
    rcases hoffers.node_or_foreign with ⟨n, hn, heq⟩ | hforeign
    · exact absurd heq (hnone.mp hmissing n hn)
    · exact hforeign
  refine ⟨t, htree, hnode, ⟨fun hmissing => (hforeign hmissing).1, fun hf => hnone.mpr hf.2⟩,
    fun hmissing => (hforeign hmissing).2, ?_⟩
  intro hsource hplain
  by_contra hmissing
  rw [Option.not_isSome_iff_eq_none] at hmissing
  exact Tree.not_isForeign_of_written hsource hplain (hforeign hmissing).1

/-- A device that delivers one screen. -/
def showing (payload : Json) : Playback :=
  { queue := [⟨payload, ⟨[], 1, 1⟩⟩] }

/-- That screen is the current one after a refresh. -/
theorem run_showing (configuration : Configuration) {payload : Json} {t : Tree}
    (h : Tree.ofPayload payload configuration.webViewKind = .ok t) (input : Input) :
    run Playback.device configuration (showing payload) [.event .refresh, input] =
      ((new configuration).loading ⟨t, ⟨[], 1, 1⟩⟩).receive Playback.device
        ((Connection.opened (showing payload)).fetch Playback.device).2 input := by
  simp [run, receive, handle, refresh, load, loading, Connection.fetch, Connection.opened,
    Playback.device, Playback.fetch, showing, new, h]

theorem receive_treeHover (d : Device σ) (i : Inspector) (c : Connection σ) (reference : String) :
    i.receive d c (.event (.treeHover reference)) = ((i.treeHover reference).2, c) := rfl

theorem receive_locatorInput (d : Device σ) (i : Inspector) (c : Connection σ)
    (expression : String) :
    i.receive d c (.event (.locatorInput expression)) = ((i.locatorInput expression).2, c) := rfl

/-- A web view that was pointed at is selected. -/
theorem selectedNode_web :
    ∃ i c, run Playback.device {} (showing nativeScreen)
        [.event .refresh, .event (.treeHover "web")] = (i, c) ∧
      i.selection? = some ⟨"web", 1⟩ ∧
      ∃ t, i.tree? = some t ∧
        ∀ n, i.selectedNode? = some n ↔ n ∈ t.nodes ∧ n.reference = "web" := by
  let i := ((new {}).loading ⟨nativeScreenTree, ⟨[], 1, 1⟩⟩).selecting "web"
  let c := ((Connection.opened (showing nativeScreen)).fetch Playback.device).2
  have hhover : (((new {}).loading ⟨nativeScreenTree, ⟨[], 1, 1⟩⟩).treeHover "web").2 = i := rfl
  have hrun : run Playback.device {} (showing nativeScreen)
      [.event .refresh, .event (.treeHover "web")] = (i, c) := by
    rw [run_showing {} Tree.ofPayload_nativeScreen, receive_treeHover, hhover]
  have hselection : i.selection? = some ⟨"web", 1⟩ := rfl
  obtain ⟨t, htree, hnode, -⟩ := selection_stands Playback.device hrun hselection
  exact ⟨i, c, hrun, hselection, t, htree, hnode⟩

/-- What a page holds that is not on the screen. -/
def ghost : Node :=
  .node ⟨"ghost", "Image", none, [], none, none⟩ []

/-- A screen of one view, with a source text that shows something else. -/
def hauntedScreen : Json :=
  .object [("metadata", .object [("type", .string "View"), ("reference", .string "root"),
    ("rect", .object [("x", .whole 0), ("y", .whole 0), ("w", .whole 1), ("h", .whole 1)]),
    ("xml", .string ghost.sourceText)])]

def hauntedRoot : Node :=
  .node ⟨"root", "View", some ⟨Number.ofInt 0, Number.ofInt 0, Number.ofInt 1, Number.ofInt 1⟩,
    [], none, none⟩ []

theorem isCarried_ghost : ∀ m ∈ ghost.all, m.element.IsCarried := by
  simp only [ghost, Node.forall_mem_all, List.not_mem_nil, false_imp_iff, implies_true, and_true]
  decide

theorem answer_ghost :
    (Evaluator.ofSource ghost.sourceText).answer [] "//Image" = .ok ["ghost"] := by
  have hexpression : Locator.baseExpression ghost.element = "//Image" := by decide
  have htag : ghost.element.tag ≠ wrapperTag := by decide
  rw [← hexpression, Node.answer_baseExpression isCarried_ghost htag]
  have hsharing : (ghost.sharing ghost.element).map Node.reference = ["ghost"] := by
    simp [Node.sharing, ghost, Node.all_node, Node.element, Node.reference,
      Locator.sharesIdentity_self]
  rw [hsharing]

/-- The tree of that screen. -/
def hauntedTree : Tree :=
  ⟨hauntedRoot, ghost.sourceText, [("root", [])], none⟩

theorem ofPayload_hauntedScreen :
    Tree.ofPayload hauntedScreen Tree.webViewKind = .ok hauntedTree := by
  have hread : ∀ levels, readNode .inspector (levels + 1) hauntedScreen = .ok hauntedRoot := by
    intro levels
    rfl
  have hblank : Text.isBlankText ghost.sourceText = false := by
    rw [Text.isBlankText, ghost.sourceText_toList]
    rfl
  have hlegal : ∀ m ∈ ghost.all, m.element.IsLegal := fun m hm => (isCarried_ghost m hm).isLegal
  refine Tree.ofPayload_eq_ok_iff.mpr ⟨rfl, hauntedRoot, hread 512, ?_⟩
  refine Tree.assemble_eq_ok_iff.mpr ⟨rfl, ?_, ?_, ?_⟩
  · simp [hauntedRoot, Node.all_node]
  · intro source hserved
    obtain ⟨hsource, -⟩ := Tree.servedSource?_eq_some_iff.mp hserved
    have htext : some (Json.string ghost.sourceText) = some (.string source) := hsource
    obtain rfl : ghost.sourceText = source := by simpa using htext
    exact ⟨_, Node.readNodes_sourceText hlegal⟩
  · have hserved : Tree.servedSource? hauntedScreen = some ghost.sourceText :=
      Tree.servedSource?_eq_some_iff.mpr ⟨rfl, hblank⟩
    rw [hserved]
    simp [hauntedTree, hauntedRoot, Node.withPaths, Node.walk_cons, Node.walk_nil, Node.labelled,
      Node.children, Node.element, Node.reference, Tree.webViewKind]

/-- **A selection may stand for nothing**: an expression finds an element that is no node. -/
theorem selectedNode_ghost :
    ∃ i c, run Playback.device {} (showing hauntedScreen)
        [.event .refresh, .event (.locatorInput "//Image")] = (i, c) ∧
      i.selection? = some ⟨"ghost", 1⟩ ∧ i.selectedNode? = none := by
  let i := ((new {}).loading ⟨hauntedTree, ⟨[], 1, 1⟩⟩).selecting "ghost"
  let c := ((Connection.opened (showing hauntedScreen)).fetch Playback.device).2
  have hanswer : hauntedTree.evaluator.answer [] "//Image" = .ok ["ghost"] := answer_ghost
  have hfound : (((new {}).loading ⟨hauntedTree, ⟨[], 1, 1⟩⟩).locatorInput "//Image").2 = i :=
    locatorInput_of_answer rfl hanswer
  have hrun : run Playback.device {} (showing hauntedScreen)
      [.event .refresh, .event (.locatorInput "//Image")] = (i, c) := by
    rw [run_showing {} ofPayload_hauntedScreen, receive_locatorInput, hfound]
  exact ⟨i, c, hrun, rfl, rfl⟩

end Inspector

end ScreenInspector
