/-
  ScreenInspector/Proofs/OfflineRecording.lean
  ============================================
  **Recording without a device agrees with recording on one.**

  Offline, one recorder clicks on one tree.  An inspection fetches a tree after every recorded click
  and starts the next search with no questions asked.  If the device always delivers the same
  payload, takes every tap and is shown unscaled, the difference cannot be seen: an evaluator that
  never changes its mind is asked the same whatever was asked before (`start_alike`), and the tree
  that is fetched has the nodes and the source text of the old one (`Shows.refresh`).  `agree_step`
  is one click of both, and `agree` all clicks by induction.
-/
import ScreenInspector.Proofs.AnsweredRuns
import ScreenInspector.Proofs.TruthfulUpdates
import ScreenInspector.Proofs.UnitScale
import ScreenInspector.Recording.Offline
import ScreenInspector.Recording.Script

namespace ScreenInspector

variable {σ σ' : Type}

/-! ### Searches of a consistent evaluator -/

section Consistent

variable {v : Evaluator}

theorem Locator.refine_alike (hv : v.IsConsistent) (reference base : String) (count left i : Nat)
    (asked asked' : Questions) : (refine v reference base count left i asked).1 =
      (refine v reference base count left i asked').1 := by
  induction left generalizing i asked asked' with
  | zero => rfl
  | succ left ih =>
    rw [refine, refine, hv asked' asked]
    cases v.answer asked (indexed base i) with
    | error fault => rfl
    | ok found =>
      dsimp only
      split
      · rfl
      · exact ih (i + 1) _ _

/-- What a search comes to does not depend on the questions before it. -/
theorem Locator.synthesize_alike (hv : v.IsConsistent) (asked asked' : Questions) (e : Element) :
    (synthesize v asked e).1 = (synthesize v asked' e).1 := by
  rw [synthesize, synthesize, hv asked' asked]
  cases v.answer asked (baseExpression e) with
  | error fault => rfl
  | ok found =>
    rcases found with _ | ⟨only, _ | ⟨second, rest⟩⟩
    · rfl
    · dsimp only
      split
      · rfl
      · rfl
    · exact refine_alike hv _ _ _ _ _ _ _

namespace Recorder

theorem locate_alike (hv : v.IsConsistent) (asked asked' : Questions) (e : Element) :
    (locate v asked e).1 = (locate v asked' e).1 := by
  have hsynthesize := Locator.synthesize_alike hv asked asked' e
  rw [locate, locate]
  generalize Locator.synthesize v asked e = first at hsynthesize ⊢
  generalize Locator.synthesize v asked' e = second at hsynthesize ⊢
  obtain ⟨result, later⟩ := first
  obtain ⟨result', later'⟩ := second
  obtain rfl : result = result' := hsynthesize
  cases result with
  | error fault => rfl
  | ok l =>
    simp only [Locator.confirm, hv later' later]
    cases v.answer later l.expression with
    | error fault => rfl
    | ok found =>
      rcases found with _ | ⟨only, _ | ⟨second, rest⟩⟩
      · rfl
      · dsimp only
        split
        · rfl
        · rfl
      · rfl

variable {r : Recorder}

/-- **A click starts in the same way** whatever was asked before. -/
theorem start_alike (hv : v.IsConsistent) (t : Tree) (asked asked' : Questions) (p : Point) :
    (r.start t v asked p).1 = (r.start t v asked' p).1 ∧
      (r.start t v asked p).2.1 = (r.start t v asked' p).2.1 := by
  rw [start, start]
  split
  · exact ⟨rfl, rfl⟩
  · cases r.acquire? with
    | none => exact ⟨rfl, rfl⟩
    | some r =>
      cases t.nodeAt? p with
      | none => exact ⟨rfl, rfl⟩
      | some n =>
        have hlocate := locate_alike hv asked asked' n.element
        dsimp only
        generalize locate v asked n.element = first at hlocate ⊢
        generalize locate v asked' n.element = second at hlocate ⊢
        obtain ⟨result, later⟩ := first
        obtain ⟨result', later'⟩ := second
        obtain rfl : result = result' := hlocate
        cases result with
        | error fault => exact ⟨rfl, rfl⟩
        | ok expression => exact ⟨rfl, rfl⟩

end Recorder

end Consistent

/-! ### Devices that never refuse -/

/-- Every snapshot that a device delivers has the given payload, and it always delivers one. -/
def Device.Serves (d : Device σ) (payload : Json) : Prop :=
  ∀ state, ∃ screenshot, (d.fetch state).1 = .ok ⟨payload, screenshot⟩

def Device.TakesTaps (d : Device σ) : Prop :=
  ∀ p state, (d.tap p state).1 = .ok ()

theorem Device.takesTaps_idle : Device.idle.TakesTaps :=
  fun _ _ => rfl

/-- **A click that two devices see alike**: on both it ends in the same way without a step, or it is
recorded as the same step and taps once. -/
theorem Recorder.click_alike {v : Evaluator} (hv : v.IsConsistent) {d : Device σ} {d' : Device σ'}
    (htakes : d.TakesTaps) (htakes' : d'.TakesTaps) {r : Recorder} (harmed : r.isArmed = true)
    (hidle : r.isBusy = false) (t : Tree) (asked asked' : Questions) (p : Point) (c : Connection σ)
    (c' : Connection σ') :
    (∃ outcome later later', outcome.step? = none ∧
      r.click d t v asked p c = (outcome, r, later, c) ∧
      r.click d' t v asked' p c' = (outcome, r, later', c')) ∨
    ∃ s later later', r.click d t v asked p c =
        (.recorded s, (r.push s).released, later, (c.tap d p).2) ∧
      r.click d' t v asked' p c' = (.recorded s, (r.push s).released, later', (c'.tap d' p).2) := by
  obtain ⟨hfirst, hrecorder⟩ := start_alike (r := r) hv t asked asked' p
  have hcases := start_of_idle harmed hidle t v asked p
  rw [click, click]
  generalize r.start t v asked p = started at hfirst hrecorder hcases ⊢
  generalize r.start t v asked' p = started' at hfirst hrecorder ⊢
  obtain ⟨first, next, later⟩ := started
  obtain ⟨first', next', later'⟩ := started'
  obtain rfl : first = first' := hfirst
  obtain rfl : next = next' := hrecorder
  rcases hcases with ⟨outcome, -, hstep, rfl, rfl⟩ | ⟨n, expression, -, -, rfl, rfl⟩
  · exact Or.inl ⟨outcome, later, later', hstep, rfl, rfl⟩
  · refine Or.inr ⟨⟨r.stepCount + 1, expression, .click, p⟩, later, later', ?_, ?_⟩
    · simp only [Connection.tap, finish_eq, htakes p c.state, outcomeOfTap, released_push_acquired]
    · simp only [Connection.tap, finish_eq, htakes' p c'.state, outcomeOfTap, released_push_acquired]

theorem ClickFailure.ofOutcome?_of_step?_eq_none {outcome : ClickOutcome}
    (h : outcome.step? = none) : ∃ failure, ofOutcome? outcome = some failure := by
  cases outcome with
  | recorded s => cases h
  | tapFailed s e => cases h
  | ignored => exact ⟨_, rfl⟩
  | noElement p => exact ⟨_, rfl⟩
  | failed e => exact ⟨_, rfl⟩

@[simp] theorem Update.recorded_followedBy (first refresh : Update) :
    (first.followedBy refresh).recorded = first.recorded := by
  rw [followedBy]
  split
  · rfl
  · rfl

/-! ### Trees of one payload -/

/-- **A payload has the same nodes and source text** whatever counts as a web view. -/
theorem Tree.ofPayload_alike {payload : Json} {kind : String} {t : Tree}
    (h : ofPayload payload kind = .ok t) (kind' : String) :
    ∃ t', ofPayload payload kind' = .ok t' ∧ t'.root = t.root ∧ t'.source = t.source := by
  obtain ⟨hobject, root, hroot, hassemble⟩ := ofPayload_eq_ok_iff.mp h
  obtain ⟨hrect, hnodup, hserved, rfl⟩ := assemble_eq_ok_iff.mp hassemble
  exact ⟨_, ofPayload_eq_ok_iff.mpr ⟨hobject, root, hroot,
    assemble_eq_ok_iff.mpr ⟨hrect, hnodup, hserved, rfl⟩⟩, rfl, rfl⟩

theorem Tree.nodeAt?_congr {t t' : Tree} (h : t'.root = t.root) (p : Point) :
    t'.nodeAt? p = t.nodeAt? p := by
  rw [nodeAt?, nodeAt?, candidates, candidates, nodes, nodes, h]

theorem Recorder.click_congr {t t' : Tree} (h : t'.root = t.root) (d : Device σ) (v : Evaluator)
    (asked : Questions) (p : Point) (r : Recorder) (c : Connection σ) :
    r.click d t' v asked p c = r.click d t v asked p c := by
  rw [click, click, start, start, Tree.nodeAt?_congr h]

namespace Inspector

/-! ### An inspection that goes along -/

/-- An inspector shows a tree unscaled, and will do so with all snapshots of its device. -/
structure Shows (d : Device σ) (t : Tree) (i : Inspector) : Prop where
  tree : ∃ t', i.tree? = some t' ∧ t'.root = t.root ∧ t'.source = t.source
  scale_eq : i.scale = .identity
  unscaled : ∀ state s, (d.fetch state).1 = .ok s →
    scaleOf i.shownSize (some s.screenshot) = .identity

variable {d : Device σ} {payload : Json} {kind : String} {t : Tree} {i : Inspector}

/-- **A refresh shows the tree again** and leaves the recorder as it is. -/
theorem Shows.refresh (htree : Tree.ofPayload payload kind = .ok t) (hserves : d.Serves payload)
    (hunscaled : ∀ state s, (d.fetch state).1 = .ok s →
      scaleOf i.shownSize (some s.screenshot) = .identity) (c : Connection σ) :
    Shows d t (i.refresh d c).2.1 := by
  obtain ⟨t', htree', hsame⟩ := Tree.ofPayload_alike htree i.configuration.webViewKind
  obtain ⟨screenshot, hanswer⟩ := hserves c.state
  have hrefresh : (i.refresh d c).2.1 = i.loading ⟨t', screenshot⟩ := by
    simp [Inspector.refresh, Connection.fetch, hanswer, load, htree', loading]
  rw [hrefresh]
  exact ⟨⟨t', rfl, hsame⟩, hunscaled c.state _ hanswer, hunscaled⟩

/-- An inspection and the recorder of another agree on the screen and on what was recorded. -/
structure Agree (d : Device σ) (t : Tree) (i : Inspector) (r : Recorder) : Prop where
  shows_tree : Shows d t i
  recorder_eq : i.recorder = r
  isArmed : r.isArmed = true
  isIdle : r.isBusy = false

/-- The points of the taps that went out over a connection. -/
def taps (c : Connection σ) : List Point :=
  c.history.filterMap DeviceCall.point?

theorem taps_fetch (d : Device σ) (c : Connection σ) : taps (c.fetch d).2 = taps c := by
  rw [taps, Connection.history_fetch, List.filterMap_append]
  exact List.append_nil _

theorem taps_tap (d : Device σ) (p : Point) (c : Connection σ) :
    taps (c.tap d p).2 = taps c ++ [p] := by
  rw [taps, Connection.history_tap, List.filterMap_append]
  rfl

/-- **One click of both.**  They still agree after it; it failed offline iff it recorded nothing, and
else it was tapped. -/
theorem agree_step (htree : Tree.ofPayload payload kind = .ok t) (hserves : d.Serves payload)
    (htakes : d.TakesTaps) {r : Recorder} (h : Agree d t i r) (asked : Questions) (p : Point)
    (c : Connection σ) :
    let (outcome, r', _, _) := r.click Device.idle t t.evaluator asked p (.opened ())
    let (u, i', c') := i.pointerClick d c p
    Agree d t i' r' ∧
    ((∃ failure, ClickFailure.ofOutcome? outcome = some failure) ∧ u.recorded = none ∨
      ∃ s, outcome = .recorded s ∧ u.recorded = some s ∧ taps c' = taps c ++ [p]) := by
  obtain ⟨t', htree', hroot, hsource⟩ := h.shows_tree.tree
  have hevaluator : t'.evaluator = t.evaluator := by rw [Tree.evaluator, Tree.evaluator, hsource]
  have hpoint : i.scale.toDevice p = p := by rw [h.shows_tree.scale_eq, Scale.toDevice_identity]
  have hclicks := Recorder.click_alike (Evaluator.isConsistent_ofSource t.source) htakes
    Device.takesTaps_idle h.isArmed h.isIdle t [] asked p c (.opened ())
  rw [pointerClick, htree']
  dsimp only
  rw [hpoint, h.recorder_eq, hevaluator, Recorder.click_congr hroot]
  rcases hclicks with ⟨outcome, later, later', hstep, hlive, hoffline⟩ |
    ⟨s, later, later', hlive, hoffline⟩
  · rw [Tree.evaluator, hlive, hoffline]
    have hrecorded : (clickUpdate outcome).recorded = none :=
      (recorded_clickUpdate outcome).trans hstep
    have hsame : Agree d t { i with recorder := r } r :=
      ⟨⟨h.shows_tree.tree, h.shows_tree.scale_eq, h.shows_tree.unscaled⟩, rfl, h.isArmed, h.isIdle⟩
    have hfailed := ClickFailure.ofOutcome?_of_step?_eq_none hstep
    cases outcome with
    | recorded s => cases hstep
    | tapFailed s e => cases hstep
    | ignored => exact ⟨hsame, Or.inl ⟨hfailed, hrecorded⟩⟩
    | noElement q => exact ⟨hsame, Or.inl ⟨hfailed, hrecorded⟩⟩
    | failed e => exact ⟨hsame, Or.inl ⟨hfailed, hrecorded⟩⟩
  · rw [Tree.evaluator, hlive, hoffline]
    have hshows : Shows d t (({ i with recorder := (r.push s).released } : Inspector).refresh d
        (c.tap d p).2).2.1 := by
      apply Shows.refresh htree hserves
      exact h.shows_tree.unscaled
    obtain ⟨hrecorder, hconnection⟩ :=
      refresh_spec d { i with recorder := (r.push s).released } (c.tap d p).2
    refine ⟨⟨hshows, hrecorder, h.isArmed, rfl⟩, Or.inr ⟨s, rfl, ?_, ?_⟩⟩
    · rw [Update.recorded_followedBy, recorded_clickUpdate]
      rfl
    · rw [hconnection, taps_fetch, taps_tap]

/-- An answered input that recorded a step. -/
def IsRecorded (entry : Input × Option Update) : Prop :=
  ∃ u s, entry.2 = some u ∧ u.recorded = some s

/-- **All clicks of both**, by induction on the points. -/
theorem agree (htree : Tree.ofPayload payload kind = .ok t) (hserves : d.Serves payload)
    (htakes : d.TakesTaps) {r : Recorder} (h : Agree d t i r) (points : List Point)
    (position : Nat) (asked : Questions) (c : Connection σ) :
    let clicks := points.map fun p => Input.event (.pointerClick p)
    let (failures, r') := Recorder.clickAll t t.evaluator position asked r points
    (resume d i c clicks).1.recorder = r' ∧
    (failures = [] ↔ ∀ entry ∈ log d i c clicks, IsRecorded entry) ∧
    (failures = [] → taps (resume d i c clicks).2 = taps c ++ points) := by
  induction points generalizing i r position asked c with
  | nil => exact ⟨h.recorder_eq, by simp [log], by simp⟩
  | cons p rest ih =>
    have hstep := agree_step htree hserves htakes h asked p c
    simp only [List.map_cons, resume_cons, log_cons, Recorder.clickAll, List.forall_mem_cons]
    have hreceive : i.receive d c (.event (.pointerClick p)) = (i.pointerClick d c p).2 := rfl
    have hreply : i.reply? d c (.event (.pointerClick p)) = some (i.pointerClick d c p).1 := rfl
    rw [hreceive, hreply]
    generalize i.pointerClick d c p = live at hstep ⊢
    generalize r.click Device.idle t t.evaluator asked p (.opened ()) = offline at hstep ⊢
    obtain ⟨u, i', c'⟩ := live
    obtain ⟨outcome, r', asked', c''⟩ := offline
    obtain ⟨hagree, houtcome⟩ := hstep
    have hrest := ih hagree (position + 1) asked' c'
    dsimp only at hrest houtcome ⊢
    generalize Recorder.clickAll t t.evaluator (position + 1) asked' r' rest = others at hrest ⊢
    obtain ⟨failures, last⟩ := others
    obtain ⟨hrecorder, hfailures, htaps⟩ := hrest
    rcases houtcome with ⟨⟨failure, hfailure⟩, hnone⟩ | ⟨s, rfl, hsome, htap⟩
    · rw [hfailure]
      refine ⟨hrecorder, ⟨fun hnil => by simp at hnil, ?_⟩, fun hnil => by simp at hnil⟩
      rintro ⟨⟨u', s, hu, hs⟩, -⟩
      obtain rfl := Option.some.inj hu
      simp [hnone] at hs
    · refine ⟨hrecorder, ⟨?_, ?_⟩, ?_⟩
      · intro hnil
        exact ⟨⟨u, s, rfl, hsome⟩, hfailures.mp hnil⟩
      · rintro ⟨-, hall⟩
        exact hfailures.mpr hall
      · intro hnil
        rw [htaps hnil, htap, List.append_assoc]
        rfl

/-! ### The main result -/

/-- **Recording offline agrees with a live inspection**, for every accepted payload and all points.
The inspection records, is shown unscaled, and is refreshed on a device that always delivers the
payload and takes every tap.  Offline all clicks are recorded iff each of them is recorded live;
then the steps are the same, so the scripts are, and the device got exactly the points as taps. -/
theorem offline_agrees {d : Device σ} {payload : Json} {kind : String} {t : Tree} {i : Inspector}
    (htree : Tree.ofPayload payload kind = .ok t) (hserves : d.Serves payload)
    (htakes : d.TakesTaps) (harmed : i.recorder = { isArmed := true })
    (hunscaled : ∀ state s, (d.fetch state).1 = .ok s →
      scaleOf i.shownSize (some s.screenshot) = .identity)
    (c : Connection σ) (points : List Point) :
    let (i₁, c₁) := i.receive d c (.event .refresh)
    let clicks := points.map fun p => Input.event (.pointerClick p)
    let (i', c') := resume d i₁ c₁ clicks
    ((∃ r, Recorder.offline t points = .ok r) ↔
      ∀ entry ∈ log d i₁ c₁ clicks, ∃ u s, entry.2 = some u ∧ u.recorded = some s) ∧
    ∀ r, Recorder.offline t points = .ok r →
      i'.recorder = r ∧
      (∀ flavor, scriptOf flavor i'.recorder.steps = scriptOf flavor r.steps) ∧
      c'.history.filterMap DeviceCall.point? = c.history.filterMap DeviceCall.point? ++ points := by
  have hshows : Shows d t (i.refresh d c).2.1 := Shows.refresh htree hserves hunscaled c
  obtain ⟨hrecorder, hconnection⟩ := refresh_spec d i c
  have htaps : taps (i.refresh d c).2.2 = taps c := by rw [hconnection, taps_fetch]
  have hrefresh : i.receive d c (.event .refresh) = (i.refresh d c).2 := rfl
  rw [hrefresh]
  generalize (i.refresh d c).2 = refreshed at hshows hrecorder htaps
  obtain ⟨i₁, c₁⟩ := refreshed
  have hagree : Agree d t i₁ { isArmed := true } := ⟨hshows, hrecorder.trans harmed, rfl, rfl⟩
  have hall := agree htree hserves htakes hagree points 1 [] c₁
  dsimp only at hall htaps ⊢
  rw [Recorder.offline]
  generalize Recorder.clickAll t t.evaluator 1 [] { isArmed := true } points = offline at hall ⊢
  obtain ⟨failures, last⟩ := offline
  obtain ⟨hlast, hfailures, hpoints⟩ := hall
  cases failures with
  | nil =>
    refine ⟨⟨fun _ => hfailures.mp rfl, fun _ => ⟨last, rfl⟩⟩, ?_⟩
    rintro r hr
    obtain rfl := Except.ok.inj hr
    refine ⟨hlast, fun flavor => by rw [hlast], ?_⟩
    exact (hpoints rfl).trans (by rw [htaps]; rfl)
  | cons failure others =>
    refine ⟨⟨?_, fun hall => absurd (hfailures.mpr hall) (by simp)⟩, ?_⟩
    · rintro ⟨r, hr⟩
      cases hr
    · intro r hr
      cases hr

/-- A click on an element with a locator is recorded. -/
theorem offline_of_succeeds {n : Node} {p : Point} (hnode : t.nodeAt? p = some n)
    (hfound : Locator.Succeeds t.evaluator [] n.element) :
    ∃ s, s.point = p ∧
      Recorder.offline t [p] = .ok (Recorder.push { isArmed := true } s).released := by
  obtain ⟨l, hl, hanswer⟩ := hfound
  have hfinds : ({ isArmed := true } : Recorder).Finds t t.evaluator [] p n l
      (Locator.synthesize t.evaluator [] n.element).2 :=
    ⟨rfl, rfl, hnode, by rw [← hl]⟩
  have hadmits : ({ isArmed := true } : Recorder).Admits t t.evaluator [] p
      ⟨1, l.expression, .click, p⟩ :=
    ⟨n, l, _, hfinds, hanswer _, rfl⟩
  obtain ⟨later, hclick⟩ := hadmits.click Device.idle (.opened ())
  refine ⟨⟨1, l.expression, .click, p⟩, rfl, ?_⟩
  simp only [Recorder.offline, Recorder.clickAll, hclick]
  rfl

/-- A device that shows one screen for ever. -/
def still (payload : Json) : Device Unit where
  fetch _ := (.ok ⟨payload, ⟨[], 1, 1⟩⟩, ())
  tap _ _ := (.ok (), ())

/-- The web view of the screen lies under a point, and its tag alone is a locator for it. -/
theorem succeeds_web : ∃ web, nativeScreenTree.nodeAt? ⟨2.0, 3.0⟩ = some web ∧
    Locator.Succeeds nativeScreenTree.evaluator [] web.element := by
  have hcarried : ∀ m ∈ nativeScreenRoot.all, m.element.IsCarried := by
    simp only [nativeScreenRoot, Node.forall_mem_all, List.forall_mem_cons]
    exact ⟨by decide, by decide, by simp⟩
  obtain ⟨web, hweb, hreference⟩ : ∃ web, nativeScreenTree.nodeAt? ⟨2.0, 3.0⟩ = some web ∧
      web.reference = "web" := by
    apply Option.map_eq_some_iff.mp
    decide +kernel
  have hbase : ∀ e : Element, e.tag ≠ wrapperTag →
      nativeScreenTree.evaluator.answer [] (Locator.baseExpression e) =
        .ok ((nativeScreenRoot.sharing e).map Node.reference) :=
    fun e htag => Node.answer_baseExpression hcarried htag
  have hmem := Tree.mem_nodes_of_nodeAt? hweb
  have hanswer : nativeScreenTree.evaluator.answer [] (Locator.baseExpression web.element) =
      .ok [web.reference] := by
    simp only [Tree.nodes, nativeScreenTree, nativeScreenRoot, Node.all_node, List.flatMap_cons,
      List.flatMap_nil, List.append_nil, List.mem_cons, List.not_mem_nil, or_false] at hmem
    rcases hmem with rfl | rfl
    · exact absurd hreference (by decide)
    · rw [hbase _ (by decide)]
      exact congrArg Except.ok (by decide +kernel)
  exact ⟨web, hweb, Locator.succeeds_of_only (Evaluator.isConsistent_ofSource _) hanswer⟩

/-- A web view that is clicked on offline and live. -/
theorem offline_agrees_web :
    ∃ r, Recorder.offline nativeScreenTree [⟨2.0, 3.0⟩] = .ok r ∧
      r.steps.map RecordedStep.point = [⟨2.0, 3.0⟩] ∧
      let (i, c) := run (still nativeScreen) { record := true } ()
        [.event .refresh, .event (.pointerClick ⟨2.0, 3.0⟩)]
      i.recorder = r ∧ c.history.filterMap DeviceCall.point? = [⟨2.0, 3.0⟩] := by
  obtain ⟨web, hweb, hfound⟩ := succeeds_web
  obtain ⟨s, hpoint, hoffline⟩ := offline_of_succeeds hweb hfound
  have hagree := offline_agrees (i := new { record := true }) Tree.ofPayload_nativeScreen
    (d := still nativeScreen) (fun _ => ⟨_, rfl⟩) (fun _ _ => rfl) rfl (fun _ _ _ => rfl)
    (.opened ()) [⟨2.0, 3.0⟩]
  rw [run_eq_resume, resume_cons]
  -- The states stay as they are: nothing of the run has to be evaluated.
  generalize (new { record := true }).receive (still nativeScreen) (.opened ()) (.event .refresh) =
    refreshed at hagree ⊢
  obtain ⟨i₁, c₁⟩ := refreshed
  obtain ⟨-, hrecorder⟩ := hagree
  obtain ⟨hrecorded, -, htaps⟩ := hrecorder _ hoffline
  exact ⟨_, hoffline, congrArg (fun p => [p]) hpoint, hrecorded, htaps⟩

end Inspector

end ScreenInspector
