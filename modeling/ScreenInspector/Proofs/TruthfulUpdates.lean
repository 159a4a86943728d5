/-
  ScreenInspector/Proofs/TruthfulUpdates.lean
  ===========================================
  **An update tells what became of the session.**

  Each handler builds its update beside the new state, and a click that is recorded joins two
  updates.  `Reports` compares an update with the states before and after: the generation and the
  steps grow exactly as it says, and what it shows is so in the state after.  An update that shows
  nothing, selecting, searching and refreshing are one lemma each; a recorded click is the click
  followed by the refresh (`reports_followedBy`).  `update_truthful` says it of every event after
  every run.
-/
import ScreenInspector.Proofs.SelectedNodes

namespace ScreenInspector

theorem Tree.find?_eq_some_iff_of_accepted {t : Tree} {payload : Json} {kind : String}
    (h : ofPayload payload kind = .ok t) {reference : String} {n : Node} :
    t.find? reference = some n ↔ n ∈ t.nodes ∧ n.reference = reference := by
  obtain ⟨root, hassemble⟩ := assemble_of_ofPayload h
  exact find?_eq_some_iff hassemble

theorem Details.describe_eq (v : Evaluator) (asked : Questions) (e : Element) :
    (describe v asked e).1 =
      ofElement e ((Locator.synthesize v asked e).1.toOption.map Locator.expression) := by
  rw [describe]

/-- A locator that was found for an element selects exactly the element, whenever it is asked. -/
theorem Locator.answer_of_synthesize {source : String} {asked : Questions} {e : Element}
    {expression : String}
    (h : (synthesize (Evaluator.ofSource source) asked e).1.toOption.map Locator.expression =
      some expression) (asked' : Questions) :
    (Evaluator.ofSource source).answer asked' expression = .ok [e.reference] := by
  cases hresult : (synthesize (Evaluator.ofSource source) asked e).1 with
  | error fault =>
    rw [hresult] at h
    cases h
  | ok l =>
    rw [hresult] at h
    obtain rfl : l.expression = expression := Option.some.inj h
    exact answer_of_ok (Evaluator.isConsistent_ofSource source) hresult asked'

/-! ### Joined updates -/

namespace Update

variable {first refresh : Update}

theorem followedBy_of_refreshed (h : refresh.isRefreshed = true) :
    first.followedBy refresh =
      { first with
        highlights := refresh.highlights, details := refresh.details,
        webViewMarkup := refresh.webViewMarkup, isRefreshed := true,
        notices := first.notices ++ refresh.notices } := by
  simp [followedBy, h]

theorem followedBy_of_not_refreshed (h : refresh.isRefreshed = false) :
    first.followedBy refresh = { first with notices := first.notices ++ refresh.notices } := by
  simp [followedBy, h]

/-- An update that shows no element and brings no snapshot. -/
structure IsPlain (u : Update) : Prop where
  highlights_eq : u.highlights = []
  details_eq : u.details = none
  isRefreshed_eq : u.isRefreshed = false
  webViewMarkup_eq : u.webViewMarkup = none

theorem isPlain_nothing : nothing.IsPlain :=
  ⟨rfl, rfl, rfl, rfl⟩

theorem isPlain_notice (severity : Severity) (message : String) : (notice severity message).IsPlain :=
  ⟨rfl, rfl, rfl, rfl⟩

end Update

namespace Inspector

variable {σ : Type} {d : Device σ} {c : Connection σ} {i j k : Inspector} {u : Update}

theorem isPlain_clickUpdate (outcome : ClickOutcome) : (clickUpdate outcome).IsPlain := by
  cases outcome with
  | ignored => exact Update.isPlain_nothing
  | noElement point => exact Update.isPlain_notice _ _
  | failed error => exact Update.isPlain_notice _ _
  | tapFailed step error => exact ⟨rfl, rfl, rfl, rfl⟩
  | recorded step => exact ⟨rfl, rfl, rfl, rfl⟩

theorem recorded_clickUpdate (outcome : ClickOutcome) :
    (clickUpdate outcome).recorded = outcome.step? := by
  cases outcome with
  | _ => rfl

/-! ### What is shown -/

/-- Details are those of the selected node, and their locator selects this node alone. -/
def Describes (i : Inspector) (details : Details) : Prop :=
  i.selection? = some ⟨details.reference, i.generation⟩ ∧
  ∃ t n, i.tree? = some t ∧ n ∈ t.nodes ∧ n.reference = details.reference ∧
    i.selectedNode? = some n ∧ details = Details.ofElement n.element details.locator ∧
    ∀ locator, details.locator = some locator →
      ∀ asked, (Evaluator.ofSource t.source).answer asked locator = .ok [details.reference]

/-- A box is that of a node of the current tree, as large as the picture shows it. -/
def Draws (i : Inspector) (h : Highlight) : Prop :=
  ∃ t n r, i.tree? = some t ∧ n ∈ t.nodes ∧ n.reference = h.reference ∧
    n.element.rect = some r ∧ h.shown = i.scale.toShown r

theorem draws_of_highlight? {t : Tree} {n : Node} {h : Highlight} (htree : i.tree? = some t)
    (hn : n ∈ t.nodes) (hh : i.highlight? n = some h) : i.Draws h := by
  obtain ⟨r, hrect, rfl⟩ := Option.map_eq_some_iff.mp hh
  exact ⟨t, n, r, htree, hn, rfl, hrect, rfl⟩

/-- The selected node of the current tree is described by its details. -/
theorem describes_selecting {t : Tree} {n : Node} (htree : i.tree? = some t)
    (hfind : t.find? n.reference = some n) :
    (i.selecting n.reference).Describes (Details.describe t.evaluator [] n.element).1 := by
  have hselection : (i.selecting n.reference).selection? = some ⟨n.reference, i.generation⟩ := by
    simp [selection?, selecting, Option.filter]
  have hselected : (i.selecting n.reference).selectedNode? = some n := by
    rw [selectedNode?, hselection]
    have htree' : (i.selecting n.reference).tree? = some t := htree
    simp [htree', hfind]
  rw [Details.describe_eq]
  generalize hlocator : (Locator.synthesize t.evaluator [] n.element).1.toOption.map
    Locator.expression = locator
  refine ⟨hselection, t, n, htree, Tree.mem_nodes_of_find? hfind, rfl, hselected, rfl, ?_⟩
  intro expression hexpression asked
  exact Locator.answer_of_synthesize (hlocator.trans hexpression) asked

/-! ### Reports -/

/-- **An update reports** what made one state of another. -/
structure Reports (before : Inspector) (u : Update) (after : Inspector) : Prop where
  generation_eq : after.generation = before.generation + if u.isRefreshed then 1 else 0
  loaded_eq : u.isRefreshed = false → after.loaded = before.loaded
  steps_eq : after.recorder.steps = before.recorder.steps ++ u.recorded.toList
  described : ∀ details, u.details = some details → after.Describes details
  drawn : ∀ h ∈ u.highlights, after.Draws h
  webViewMarkup_eq : u.webViewMarkup = if u.isRefreshed then after.webViewMarkup? else none

/-- An update that shows nothing reports the steps alone. -/
theorem reports_of_isPlain (h : u.IsPlain) (hgeneration : j.generation = i.generation)
    (hloaded : j.loaded = i.loaded)
    (hsteps : j.recorder.steps = i.recorder.steps ++ u.recorded.toList) : Reports i u j where
  generation_eq := by simp [h.isRefreshed_eq, hgeneration]
  loaded_eq _ := hloaded
  steps_eq := hsteps
  described details hdetails := by simp [h.details_eq] at hdetails
  drawn highlight hmem := by simp [h.highlights_eq] at hmem
  webViewMarkup_eq := by simp [h.webViewMarkup_eq, h.isRefreshed_eq]

/-- A message is reported by a state in which nothing else changed. -/
theorem reports_notice (severity : Severity) (message : String)
    (hgeneration : j.generation = i.generation) (hloaded : j.loaded = i.loaded)
    (hrecorder : j.recorder = i.recorder) : Reports i (.notice severity message) j :=
  reports_of_isPlain (Update.isPlain_notice severity message) hgeneration hloaded
    (by simp [hrecorder, Update.notice])

theorem reports_nothing (i : Inspector) : Reports i .nothing i :=
  reports_of_isPlain Update.isPlain_nothing rfl rfl (by simp [Update.nothing])

theorem reports_select {t : Tree} {n : Node} (htree : i.tree? = some t)
    (hfind : t.find? n.reference = some n) : Reports i (i.select t n).1 (i.select t n).2 where
  generation_eq := rfl
  loaded_eq _ := rfl
  steps_eq := (List.append_nil _).symm
  described details hdetails := by
    obtain rfl := Option.some.inj hdetails
    exact describes_selecting htree hfind
  drawn h hmem := by
    have hhighlight : i.highlight? n = some h := Option.mem_toList.mp hmem
    obtain ⟨t', n', r, hdraws⟩ := draws_of_highlight? htree (Tree.mem_nodes_of_find? hfind) hhighlight
    exact ⟨t', n', r, hdraws⟩
  webViewMarkup_eq := rfl

/-! ### Events -/

/-- The current tree, if there is one, finds its nodes by their references. -/
def FindsNodes (i : Inspector) : Prop :=
  ∀ t, i.tree? = some t → ∀ n reference,
    t.find? reference = some n ↔ n ∈ t.nodes ∧ n.reference = reference

theorem Offered.findsNodes (h : Offered i) : i.FindsNodes := by
  intro t htree n reference
  obtain ⟨payload, kind, hpayload⟩ := h.accepted t htree
  exact Tree.find?_eq_some_iff_of_accepted hpayload

theorem reports_pointerMove (hfinds : i.FindsNodes) (shown : Point) :
    Reports i (i.pointerMove shown).1 (i.pointerMove shown).2 := by
  rw [pointerMove]
  split
  · exact reports_nothing i
  · cases htree : i.tree? with
    | none => exact reports_notice _ _ rfl rfl rfl
    | some t =>
      dsimp only
      cases hnode : t.nodeAt? (i.scale.toDevice shown) with
      | none => exact reports_notice _ _ rfl rfl rfl
      | some n =>
        have hn : n ∈ t.nodes := Tree.mem_nodes_of_nodeAt? hnode
        exact reports_select htree ((hfinds t htree n n.reference).mpr ⟨hn, rfl⟩)

theorem reports_treeHover (hfinds : i.FindsNodes) (reference : String) :
    Reports i (i.treeHover reference).1 (i.treeHover reference).2 := by
  rw [treeHover]
  split
  · exact reports_nothing i
  · cases hfound : i.tree?.bind fun t => (t.find? reference).map fun n => (t, n) with
    | none => exact reports_notice _ _ rfl rfl rfl
    | some found =>
      obtain ⟨t, htree, hfound⟩ := Option.bind_eq_some_iff.mp hfound
      obtain ⟨n, hnode, rfl⟩ := Option.map_eq_some_iff.mp hfound
      have hn : n ∈ t.nodes := Tree.mem_nodes_of_find? hnode
      exact reports_select htree ((hfinds t htree n n.reference).mpr ⟨hn, rfl⟩)

theorem reports_pressKey (i : Inspector) (command : KeyCommand) :
    Reports i (i.pressKey command).1 (i.pressKey command).2 := by
  cases command with
  | toggleLock => exact reports_notice _ _ rfl rfl rfl
  | toggleSearch => exact reports_notice _ _ rfl rfl rfl

/-- Whatever references an expression is answered with, only boxes of nodes are drawn. -/
theorem draws_of_answer {t : Tree} {found : List String} (htree : i.tree? = some t) {h : Highlight}
    (hmem : h ∈ (found.filterMap t.find?).filterMap i.highlight?) : i.Draws h := by
  obtain ⟨n, hn, hhighlight⟩ := List.mem_filterMap.mp hmem
  obtain ⟨reference, -, hfind⟩ := List.mem_filterMap.mp hn
  exact draws_of_highlight? htree (Tree.mem_nodes_of_find? hfind) hhighlight

theorem reports_locatorInput (hfinds : i.FindsNodes) (expression : String) :
    Reports i (i.locatorInput expression).1 (i.locatorInput expression).2 := by
  rw [locatorInput]
  cases htree : i.tree? with
  | none => exact reports_notice _ _ rfl rfl rfl
  | some t =>
    dsimp only
    cases hanswer : t.evaluator.answer [] expression with
    | error e => exact reports_of_isPlain ⟨rfl, rfl, rfl, rfl⟩ rfl rfl (by simp)
    | ok found =>
      dsimp only
      split
      next only =>
        refine ⟨rfl, fun _ => rfl, (List.append_nil _).symm, ?_, ?_, rfl⟩
        · -- Details are those of the node that the reference stands for, if there is one.
          intro details hdetails
          obtain ⟨n, hnode, rfl⟩ := Option.map_eq_some_iff.mp hdetails
          obtain ⟨hn, rfl⟩ := (hfinds t htree n only).mp hnode
          exact describes_selecting htree hnode
        · intro h hmem
          exact draws_of_answer htree hmem
      next =>
        refine ⟨rfl, fun _ => rfl, (List.append_nil _).symm, by simp, ?_, rfl⟩
        intro h hmem
        exact draws_of_answer htree hmem

/-- A refresh reports the snapshot that it loads, if it loads one. -/
theorem reports_refresh (d : Device σ) (i : Inspector) (c : Connection σ) :
    Reports i (i.refresh d c).1 (i.refresh d c).2.1 := by
  rcases refresh_cases d i c with ⟨e, -, hrefresh⟩ | ⟨l, -, hrefresh⟩
  · rw [hrefresh]
    exact reports_notice _ _ rfl rfl rfl
  · rw [hrefresh]
    exact ⟨rfl, by simp, (List.append_nil _).symm, by simp, by simp, rfl⟩

theorem recorded_refresh (d : Device σ) (i : Inspector) (c : Connection σ) :
    (i.refresh d c).1.recorded = none := by
  rcases refresh_cases d i c with ⟨e, -, hrefresh⟩ | ⟨l, -, hrefresh⟩
  · rw [hrefresh]
    rfl
  · rw [hrefresh]

/-- **What two updates report one after the other, they report joined**, if the first shows nothing
and the second records nothing. -/
theorem reports_followedBy {v : Update} (hplain : u.IsPlain) (hrecorded : v.recorded = none)
    (hfirst : Reports i u j) (hsecond : Reports j v k) : Reports i (u.followedBy v) k := by
  have hgeneration := hfirst.generation_eq
  have hloaded := hfirst.loaded_eq hplain.isRefreshed_eq
  have hsteps : k.recorder.steps = i.recorder.steps ++ u.recorded.toList := by
    rw [hsecond.steps_eq, hrecorded, hfirst.steps_eq]
    exact List.append_nil _
  rw [hplain.isRefreshed_eq] at hgeneration
  cases hrefreshed : v.isRefreshed with
  | true =>
    rw [Update.followedBy_of_refreshed hrefreshed]
    refine ⟨?_, by simp, hsteps, hsecond.described, hsecond.drawn, ?_⟩
    · rw [hsecond.generation_eq, hrefreshed, hgeneration]
      rfl
    · rw [hsecond.webViewMarkup_eq, hrefreshed]
  | false =>
    have hkept := hsecond.loaded_eq hrefreshed
    have hsame := hsecond.generation_eq
    rw [hrefreshed] at hsame
    rw [Update.followedBy_of_not_refreshed hrefreshed]
    exact reports_of_isPlain ⟨hplain.highlights_eq, hplain.details_eq, hplain.isRefreshed_eq,
      hplain.webViewMarkup_eq⟩ (hsame.trans hgeneration) (hkept.trans hloaded) hsteps

/-- A click reports its step, and the snapshot that is loaded after it. -/
theorem reports_pointerClick (hidle : i.recorder.isBusy = false) (d : Device σ) (c : Connection σ)
    (shown : Point) : Reports i (i.pointerClick d c shown).1 (i.pointerClick d c shown).2.1 := by
  rw [pointerClick]
  cases htree : i.tree? with
  | none => exact reports_notice _ _ rfl rfl rfl
  | some t =>
    dsimp only
    have hclick : ((i.recorder.click d t t.evaluator [] (i.scale.toDevice shown) c).2.1).steps =
        i.recorder.steps ++
          (i.recorder.click d t t.evaluator [] (i.scale.toDevice shown) c).1.step?.toList := by
      rcases Recorder.click_cases d c hidle t t.evaluator [] (i.scale.toDevice shown) with
        ⟨outcome, asked, hstep, -, hclick⟩ | ⟨n, s, asked, -, -, -, -, hclick⟩
      · simp [hclick, hstep]
      · rcases hclick with ⟨e, -, hclick⟩ | hclick
        · simp [hclick, ClickOutcome.step?]
        · simp [hclick, ClickOutcome.step?]
    generalize i.recorder.click d t t.evaluator [] (i.scale.toDevice shown) c = clicked at hclick
    obtain ⟨outcome, r, asked, c'⟩ := clicked
    have hreports : Reports i (clickUpdate outcome) { i with recorder := r } :=
      reports_of_isPlain (isPlain_clickUpdate outcome) rfl rfl
        (by rw [recorded_clickUpdate]; exact hclick)
    cases outcome with
    | recorded step =>
      exact reports_followedBy (isPlain_clickUpdate _) (recorded_refresh d _ c') hreports
        (reports_refresh d _ c')
    | ignored => exact hreports
    | noElement point => exact hreports
    | failed error => exact hreports
    | tapFailed step error => exact hreports

/-- **Every event is reported** by its update. -/
theorem reports_handle (hfinds : i.FindsNodes) (hidle : i.recorder.isBusy = false) (d : Device σ)
    (c : Connection σ) (e : Event) : Reports i (i.handle d c e).1 (i.handle d c e).2.1 := by
  cases e with
  | pointerMove shown => exact reports_pointerMove hfinds shown
  | pointerClick shown => exact reports_pointerClick hidle d c shown
  | treeHover reference => exact reports_treeHover hfinds reference
  | key command => exact reports_pressKey i command
  | locatorInput expression => exact reports_locatorInput hfinds expression
  | refresh => exact reports_refresh d i c

/-- **An update tells the truth about the session**, for every event after every run with every
device.  It says that a snapshot was loaded iff the generation is the next one, and else snapshot and
generation are the old ones.  It names a step iff the recorder has exactly this step more, and else
the steps are the old ones.  Details are of the node of the current tree that is selected now, and
their locator selects it alone in the current source text; boxes are those of nodes of the current
tree, in the current scale.  Markup comes only with a new snapshot, and then it is that of its web
view. -/
theorem update_truthful (d : Device σ) (configuration : Configuration) (state : σ)
    (inputs : List Input) (e : Event) :
    let (i, c) := run d configuration state inputs
    let (u, i', _) := i.handle d c e
    (u.isRefreshed = true ↔ i'.generation = i.generation + 1) ∧
    (u.isRefreshed = false → i'.generation = i.generation ∧ i'.tree? = i.tree? ∧
      i'.screenshot? = i.screenshot?) ∧
    (∀ s, u.recorded = some s ↔ i'.recorder.steps = i.recorder.steps ++ [s]) ∧
    (u.recorded = none → i'.recorder.steps = i.recorder.steps) ∧
    (∀ details, u.details = some details →
      i'.selection? = some ⟨details.reference, i'.generation⟩ ∧
      ∃ t n, i'.tree? = some t ∧ n ∈ t.nodes ∧ n.reference = details.reference ∧
        i'.selectedNode? = some n ∧ details = Details.ofElement n.element details.locator ∧
        ∀ locator, details.locator = some locator →
          ∀ asked, (Evaluator.ofSource t.source).answer asked locator = .ok [details.reference]) ∧
    (∀ h ∈ u.highlights, ∃ t n r, i'.tree? = some t ∧ n ∈ t.nodes ∧ n.reference = h.reference ∧
      n.element.rect = some r ∧ h.shown = i'.scale.toShown r) ∧
    (∀ markup, u.webViewMarkup = some markup → u.isRefreshed = true) ∧
    (u.isRefreshed = true → u.webViewMarkup = i'.webViewMarkup?) := by
  have hfinds := (offered_run d configuration state inputs).findsNodes
  have hidle := (faithful_run d configuration state inputs).isIdle
  revert hfinds hidle
  obtain ⟨i, c⟩ := run d configuration state inputs
  intro hfinds hidle
  dsimp only at hfinds hidle ⊢
  have hreports := reports_handle hfinds hidle d c e
  generalize i.handle d c e = handled at hreports ⊢
  obtain ⟨u, i', c'⟩ := handled
  have hgeneration := hreports.generation_eq
  have hsteps := hreports.steps_eq
  have hmarkup := hreports.webViewMarkup_eq
  dsimp only at hgeneration hsteps hmarkup ⊢
  refine ⟨?_, ?_, ?_, ?_, hreports.described, hreports.drawn, ?_, ?_⟩
  · rw [hgeneration]
    cases u.isRefreshed with
    | true => simp
    | false => simp
  · intro hkept
    have hloaded := hreports.loaded_eq hkept
    rw [hkept] at hgeneration
    exact ⟨hgeneration, by rw [tree?, tree?, hloaded], by rw [screenshot?, screenshot?, hloaded]⟩
  · intro s
    rw [hsteps, List.append_cancel_left_eq]
    cases u.recorded with
    | none => simp
    | some s' => simp
  · intro hnone
    rw [hsteps, hnone]
    exact List.append_nil _
  · intro markup hsome
    by_contra hkept
    rw [hmarkup, if_neg hkept] at hsome
    cases hsome
  · intro hrefreshed
    rw [hmarkup, if_pos hrefreshed]

end Inspector

end ScreenInspector
