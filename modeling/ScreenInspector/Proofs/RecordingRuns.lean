/-
  ScreenInspector/Proofs/RecordingRuns.lean
  =========================================
  **What a whole inspection records.**

  A run feeds inputs to a new inspector, one after the other: events of the operator, and sizes at
  which the picture is shown.  The device answers as it likes.  `Effect` says all that an input
  can do to the recorder and to the connection: nothing, a fetch, or a click that records a step
  and taps, with a fetch right after a tap that succeeded (`receive_effect`).  The invariant of
  runs (`Faithful`) follows from it by one case per effect: the taps are those of the steps, the
  steps are counted from 1, and in the calls a fetch stands behind every tap that succeeded.

  That the locator of a step selects the element that was clicked is said about the run up to the
  click, where the tree of that moment is the current one (`Clicked`).
-/
import ScreenInspector.Proofs.RecorderStages
import ScreenInspector.Proofs.SelectingEvents
import Mathlib.Data.List.Induction

namespace ScreenInspector

variable {σ : Type}

/-! ### Calls of a device -/

def Device.after (d : Device σ) : σ → List DeviceCall → σ
  | state, [] => state
  | state, .fetch :: rest => d.after (d.fetch state).2 rest
  | state, .tap p :: rest => d.after (d.tap p state).2 rest

def DeviceCall.point? : DeviceCall → Option Point
  | .fetch => none
  | .tap p => some p

/-- In calls from a state on, a fetch comes next after every tap that succeeded. -/
def Device.FetchesAfterTaps (d : Device σ) : σ → List DeviceCall → Prop
  | _, [] => True
  | state, .fetch :: rest => d.FetchesAfterTaps (d.fetch state).2 rest
  | state, .tap p :: rest =>
    ((d.tap p state).1 = .ok () → ∃ more, rest = .fetch :: more) ∧
      d.FetchesAfterTaps (d.tap p state).2 rest

theorem Device.after_append (d : Device σ) (state : σ) (first second : List DeviceCall) :
    d.after state (first ++ second) = d.after (d.after state first) second := by
  induction first generalizing state with
  | nil => rfl
  | cons call rest ih =>
    cases call with
    | fetch => exact ih _
    | tap p => exact ih _

theorem Device.FetchesAfterTaps.append {d : Device σ} {state : σ} {first second : List DeviceCall}
    (hfirst : d.FetchesAfterTaps state first)
    (hsecond : d.FetchesAfterTaps (d.after state first) second) :
    d.FetchesAfterTaps state (first ++ second) := by
  induction first generalizing state with
  | nil => exact hsecond
  | cons call rest ih =>
    cases call with
    | fetch => exact ih hfirst hsecond
    | tap p =>
      obtain ⟨hfetch, hrest⟩ := hfirst
      refine ⟨fun hok => ?_, ih hrest hsecond⟩
      obtain ⟨more, rfl⟩ := hfetch hok
      exact ⟨more ++ second, rfl⟩

/-- The property of all places in a list of calls. -/
theorem Device.FetchesAfterTaps.next {d : Device σ} {state : σ} {before later : List DeviceCall}
    {p : Point} (h : d.FetchesAfterTaps state (before ++ .tap p :: later))
    (hok : (d.tap p (d.after state before)).1 = .ok ()) : ∃ more, later = .fetch :: more := by
  induction before generalizing state with
  | nil => exact h.1 hok
  | cons call rest ih =>
    cases call with
    | fetch => exact ih h hok
    | tap q => exact ih h.2 hok

theorem Connection.history_fetch (d : Device σ) (c : Connection σ) :
    (c.fetch d).2.history = c.history ++ [.fetch] := by
  simp [Connection.fetch, Connection.history]

theorem Connection.history_tap (d : Device σ) (p : Point) (c : Connection σ) :
    (c.tap d p).2.history = c.history ++ [.tap p] := by
  simp [Connection.tap, Connection.history]

/-! ### Runs -/

inductive Input where
  | event (e : Event)
  /-- The picture is shown with a given size. -/
  | shown (width height : Float)
deriving Inhabited

namespace Inspector

def receive (d : Device σ) (i : Inspector) (c : Connection σ) : Input → Inspector × Connection σ
  | .event e => (i.handle d c e).2
  | .shown width height => (i.setShownSize width height, c)

/-- A run of a new inspector over a device in a given state. -/
def run (d : Device σ) (configuration : Configuration) (state : σ) (inputs : List Input) :
    Inspector × Connection σ :=
  inputs.foldl (fun (i, c) input => i.receive d c input) (new configuration, .opened state)

theorem run_concat (d : Device σ) (configuration : Configuration) (state : σ)
    (inputs : List Input) (input : Input) :
    run d configuration state (inputs ++ [input]) =
      (run d configuration state inputs).1.receive d (run d configuration state inputs).2 input := by
  rw [run, List.foldl_append]
  rfl

/-! ### What an input does -/

/-- A step that a click on the shown picture records: it lies at the point of the device, and in
the current tree its locator selects exactly the element under that point. -/
def Clicked (i : Inspector) (shown : Point) (s : RecordedStep) : Prop :=
  ∃ t n, i.tree? = some t ∧ s.point = i.scale.toDevice shown ∧ t.nodeAt? s.point = some n ∧
    ∀ asked, (Evaluator.ofSource t.source).answer asked s.locator = .ok [n.reference]

/-- **All that an input can do** to the recorder of an inspector and to its connection. -/
inductive Effect (d : Device σ) (i : Inspector) (c : Connection σ) :
    Input → Recorder → Connection σ → Prop
  | quiet (input : Input) : Effect d i c input i.recorder c
  | fetched (input : Input) : Effect d i c input i.recorder (c.fetch d).2
  | tapFailed {shown s} (clicked : i.Clicked shown s)
      (index_eq : s.index = i.recorder.stepCount + 1)
      (failed : (d.tap s.point c.state).1 ≠ .ok ()) :
      Effect d i c (.event (.pointerClick shown)) (i.recorder.push s).released
        (c.tap d s.point).2
  | tapped {shown s} (clicked : i.Clicked shown s)
      (index_eq : s.index = i.recorder.stepCount + 1) :
      Effect d i c (.event (.pointerClick shown)) (i.recorder.push s).released
        ((c.tap d s.point).2.fetch d).2

variable {d : Device σ} {i : Inspector} {c : Connection σ}

theorem refresh_spec (d : Device σ) (i : Inspector) (c : Connection σ) :
    (i.refresh d c).2.1.recorder = i.recorder ∧ (i.refresh d c).2.2 = (c.fetch d).2 := by
  simp only [refresh]
  cases hload : i.load (c.fetch d).1 with
  | error e => exact ⟨rfl, rfl⟩
  | ok loaded =>
    refine ⟨?_, rfl⟩
    cases hanswer : (c.fetch d).1 with
    | error e => simp [hanswer, load] at hload
    | ok snapshot =>
      simp only [hanswer, load] at hload
      split at hload
      · exact absurd hload (by simp)
      · rw [← Except.ok.inj hload]

theorem recorder_pointerMove (i : Inspector) (shown : Point) :
    (i.pointerMove shown).2.recorder = i.recorder := by
  rcases i.pointerMove_cases shown with hkept | ⟨t, n, -, -, hselected⟩
  · rw [hkept]
  · rw [hselected]
    rfl

theorem recorder_treeHover (i : Inspector) (reference : String) :
    (i.treeHover reference).2.recorder = i.recorder := by
  rcases i.treeHover_cases reference with hkept | ⟨t, n, -, -, hselected⟩
  · rw [hkept]
  · rw [hselected]
    rfl

theorem recorder_pressKey (i : Inspector) (command : KeyCommand) :
    (i.pressKey command).2.recorder = i.recorder := by
  cases command with
  | toggleLock => rfl
  | toggleSearch => rfl

theorem recorder_locatorInput (i : Inspector) (expression : String) :
    (i.locatorInput expression).2.recorder = i.recorder := by
  rcases i.locatorInput_cases expression with hkept | hcleared | ⟨t, reference, -, -, hselected⟩
  · rw [hkept]
  · rw [hcleared]
  · rw [hselected]
    rfl

/-- **What a click does** to an inspector whose recorder is idle. -/
theorem pointerClick_effect (hidle : i.recorder.isBusy = false) (shown : Point) :
    Effect d i c (.event (.pointerClick shown)) (i.pointerClick d c shown).2.1.recorder
      (i.pointerClick d c shown).2.2 := by
  rw [pointerClick]
  cases htree : i.tree? with
  | none => exact .quiet _
  | some t =>
    dsimp only
    rcases Recorder.click_cases d c hidle t t.evaluator [] (i.scale.toDevice shown) with
      ⟨outcome, asked, hstep, -, hclick⟩ | ⟨n, s, asked, hnode, hanswer, hindex, hpoint, hclick⟩
    · rw [hclick]
      cases outcome with
      | recorded s => exact absurd hstep (by simp [ClickOutcome.step?])
      | tapFailed s e => exact absurd hstep (by simp [ClickOutcome.step?])
      | ignored => exact .quiet _
      | noElement p => exact .quiet _
      | failed e => exact .quiet _
    · have hclicked : i.Clicked shown s := by
        obtain ⟨asked, hanswer⟩ := hanswer
        exact ⟨t, n, htree, hpoint, by rw [hpoint]; exact hnode, fun _ => hanswer⟩
      rcases hclick with ⟨e, htap, hclick⟩ | hclick
      · rw [hclick, ← hpoint]
        rw [← hpoint] at htap
        exact .tapFailed hclicked hindex (by rw [htap]; simp)
      · rw [hclick, ← hpoint]
        obtain ⟨hrecorder, hconnection⟩ :=
          refresh_spec d { i with recorder := (i.recorder.push s).released } (c.tap d s.point).2
        dsimp only
        rw [hconnection, hrecorder]
        exact .tapped hclicked hindex

/-- **Every input has an effect** of these on an inspector whose recorder is idle. -/
theorem receive_effect (hidle : i.recorder.isBusy = false) (input : Input) :
    Effect d i c input (i.receive d c input).1.recorder (i.receive d c input).2 := by
  cases input with
  | shown width height => exact .quiet _
  | event e =>
    cases e with
    | pointerMove shown =>
      show Effect d i c _ (i.pointerMove shown).2.recorder c
      rw [recorder_pointerMove]
      exact .quiet _
    | pointerClick shown => exact pointerClick_effect hidle shown
    | treeHover reference =>
      show Effect d i c _ (i.treeHover reference).2.recorder c
      rw [recorder_treeHover]
      exact .quiet _
    | key command =>
      show Effect d i c _ (i.pressKey command).2.recorder c
      rw [recorder_pressKey]
      exact .quiet _
    | locatorInput expression =>
      show Effect d i c _ (i.locatorInput expression).2.recorder c
      rw [recorder_locatorInput]
      exact .quiet _
    | refresh =>
      obtain ⟨hrecorder, hconnection⟩ := refresh_spec d i c
      show Effect d i c _ (i.refresh d c).2.1.recorder (i.refresh d c).2.2
      rw [hrecorder, hconnection]
      exact .fetched _

/-! ### The invariant -/

/-- A recorder and the calls of a connection agree, from a state of the device on. -/
structure Faithful (d : Device σ) (isArmed : Bool) (state : σ) (r : Recorder)
    (c : Connection σ) : Prop where
  isIdle : r.isBusy = false
  isArmed_eq : r.isArmed = isArmed
  isCounted : r.IsCounted
  taps_eq : c.history.filterMap DeviceCall.point? = r.steps.map RecordedStep.point
  state_eq : c.state = d.after state c.history
  fetches : d.FetchesAfterTaps state c.history

variable {isArmed : Bool} {state : σ}

theorem faithful_new (d : Device σ) (isArmed : Bool) (state : σ) :
    Faithful d isArmed state { isArmed } (.opened state) where
  isIdle := rfl
  isArmed_eq := rfl
  isCounted := Recorder.isCounted_new isArmed
  taps_eq := rfl
  state_eq := rfl
  fetches := trivial

/-- A fetch changes nothing that the invariant is about. -/
theorem Faithful.fetch {r : Recorder} (h : Faithful d isArmed state r c) :
    Faithful d isArmed state r (c.fetch d).2 := by
  refine ⟨h.isIdle, h.isArmed_eq, h.isCounted, ?_, ?_, ?_⟩
  · rw [Connection.history_fetch, List.filterMap_append, h.taps_eq]
    simp [DeviceCall.point?]
  · rw [Connection.history_fetch, Device.after_append, ← h.state_eq]
    rfl
  · rw [Connection.history_fetch]
    exact h.fetches.append trivial

/-- **Every effect preserves the invariant.** -/
theorem Faithful.effect {input : Input} {r : Recorder} {c' : Connection σ}
    (h : Faithful d isArmed state i.recorder c) (he : Effect d i c input r c') :
    Faithful d isArmed state r c' := by
  cases he with
  | quiet => exact h
  | fetched => exact h.fetch
  | @tapFailed shown s hclicked hindex hfailed =>
    refine ⟨rfl, h.isArmed_eq, (h.isCounted.push hindex).released, ?_, ?_, ?_⟩
    · rw [Connection.history_tap, List.filterMap_append, h.taps_eq]
      simp [DeviceCall.point?]
    · rw [Connection.history_tap, Device.after_append, ← h.state_eq]
      rfl
    · rw [Connection.history_tap]
      apply h.fetches.append
      rw [← h.state_eq]
      exact ⟨fun hok => absurd hok hfailed, trivial⟩
  | @tapped shown s hclicked hindex =>
    have hhistory : ((c.tap d s.point).2.fetch d).2.history =
        c.history ++ [.tap s.point, .fetch] := by
      rw [Connection.history_fetch, Connection.history_tap, List.append_assoc]
      rfl
    refine ⟨rfl, h.isArmed_eq, (h.isCounted.push hindex).released, ?_, ?_, ?_⟩
    · rw [hhistory, List.filterMap_append, h.taps_eq]
      simp [DeviceCall.point?]
    · rw [hhistory, Device.after_append, ← h.state_eq]
      rfl
    · rw [hhistory]
      exact h.fetches.append ⟨fun _ => ⟨[], rfl⟩, trivial⟩

/-- **The invariant holds after every run.** -/
theorem faithful_run (d : Device σ) (configuration : Configuration) (state : σ)
    (inputs : List Input) :
    Faithful d configuration.record state (run d configuration state inputs).1.recorder
      (run d configuration state inputs).2 := by
  induction inputs using List.reverseRecOn with
  | nil => exact faithful_new d configuration.record state
  | append_singleton inputs input ih =>
    rw [run_concat]
    exact ih.effect (receive_effect ih.isIdle input)

/-- A click among some inputs recorded a step: it was clicked in the inspector of that moment, and
comes after the steps before it. -/
def RecordedIn (d : Device σ) (configuration : Configuration) (state : σ) (inputs : List Input)
    (s : RecordedStep) : Prop :=
  ∃ earlier shown later, inputs = earlier ++ .event (.pointerClick shown) :: later ∧
    (run d configuration state earlier).1.Clicked shown s ∧
    (run d configuration state (earlier ++ [.event (.pointerClick shown)])).1.recorder.steps =
      (run d configuration state earlier).1.recorder.steps ++ [s]

variable {configuration : Configuration} {inputs : List Input} {s : RecordedStep}

theorem RecordedIn.append (h : RecordedIn d configuration state inputs s) (more : List Input) :
    RecordedIn d configuration state (inputs ++ more) s := by
  obtain ⟨earlier, shown, later, rfl, hclicked, hsteps⟩ := h
  exact ⟨earlier, shown, later ++ more, by simp, hclicked, hsteps⟩

/-- **Every step was recorded by a click** of the run, on the tree that was there when it came. -/
theorem recordedIn_of_mem_steps
    (h : s ∈ (run d configuration state inputs).1.recorder.steps) :
    RecordedIn d configuration state inputs s := by
  induction inputs using List.reverseRecOn with
  | nil => exact absurd h (by simp [run, new])
  | append_singleton inputs input ih =>
    -- A click adds one step: it is the wanted one, or that was recorded before.
    have hnew : ∀ {shown s'}, input = .event (.pointerClick shown) →
        (run d configuration state inputs).1.Clicked shown s' →
        (run d configuration state (inputs ++ [input])).1.recorder.steps =
          (run d configuration state inputs).1.recorder.steps ++ [s'] →
        RecordedIn d configuration state (inputs ++ [input]) s := by
      rintro shown s' rfl hclicked hsteps
      rw [hsteps] at h
      rcases List.mem_append.mp h with h | h
      · exact (ih h).append _
      · rw [List.mem_singleton.mp h]
        exact ⟨inputs, shown, [], rfl, hclicked, hsteps⟩
    have heffect := receive_effect (d := d) (c := (run d configuration state inputs).2)
      (faithful_run d configuration state inputs).isIdle input
    rw [← run_concat d configuration state inputs input] at heffect
    generalize hrecorder : (run d configuration state (inputs ++ [input])).1.recorder = r at heffect
    generalize (run d configuration state (inputs ++ [input])).2 = c' at heffect
    rw [hrecorder] at h hnew
    cases heffect with
    | quiet => exact (ih h).append _
    | fetched => exact (ih h).append _
    | tapFailed hclicked hindex hfailed => exact hnew rfl hclicked rfl
    | tapped hclicked hindex => exact hnew rfl hclicked rfl

/-! ### The main result -/

/-- **Recording is faithful over whole runs**, for every device, configuration and input.  The taps
that went out are those of the steps, in order; the steps are counted from 1; each was recorded by a
click of the run, and in the source text of the tree that was there when the click came its locator
selects exactly the element under its point; the next call after a tap that succeeded is a fetch;
and an inspector that records ignores no click on a tree. -/
theorem recording_faithful (d : Device σ) (configuration : Configuration) (state : σ)
    (inputs : List Input) :
    let (i, c) := run d configuration state inputs
    c.history.filterMap DeviceCall.point? = i.recorder.steps.map RecordedStep.point ∧
    i.recorder.steps.map RecordedStep.index = List.range' 1 i.recorder.steps.length ∧
    (∀ s ∈ i.recorder.steps, ∃ earlier shown later,
      inputs = earlier ++ .event (.pointerClick shown) :: later ∧
      (run d configuration state (earlier ++ [.event (.pointerClick shown)])).1.recorder.steps =
        (run d configuration state earlier).1.recorder.steps ++ [s] ∧
      s.point = (run d configuration state earlier).1.scale.toDevice shown ∧
      ∃ t n, (run d configuration state earlier).1.tree? = some t ∧ t.nodeAt? s.point = some n ∧
        ∀ asked, (Evaluator.ofSource t.source).answer asked s.locator = .ok [n.reference]) ∧
    (∀ before p later, c.history = before ++ .tap p :: later →
      (d.tap p (d.after state before)).1 = .ok () → ∃ more, later = .fetch :: more) ∧
    (configuration.record = true → ∀ t, i.tree? = some t → ∀ asked shown,
      (i.recorder.click d t t.evaluator asked (i.scale.toDevice shown) c).1 ≠ .ignored) := by
  have hfaithful := faithful_run d configuration state inputs
  have hsteps := fun s (hs : s ∈ (run d configuration state inputs).1.recorder.steps) =>
    recordedIn_of_mem_steps hs
  revert hfaithful hsteps
  obtain ⟨i, c⟩ := run d configuration state inputs
  intro hfaithful hsteps
  refine ⟨hfaithful.taps_eq, hfaithful.isCounted.map_index, ?_, ?_, ?_⟩
  · intro s hs
    obtain ⟨earlier, shown, later, hinputs, ⟨t, n, htree, hpoint, hnode, hanswer⟩, happend⟩ :=
      hsteps s hs
    exact ⟨earlier, shown, later, hinputs, happend, hpoint, t, n, htree, hnode, hanswer⟩
  · intro before p later hhistory hok
    have hfetches := hfaithful.fetches
    rw [hhistory] at hfetches
    exact hfetches.next hok
  · intro hrecord t _ asked shown
    have harmed : i.recorder.isArmed = true := hfaithful.isArmed_eq.trans hrecord
    exact i.recorder.click_ne_ignored d c harmed hfaithful.isIdle t _ asked _

end Inspector

end ScreenInspector
