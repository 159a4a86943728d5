/-
  ScreenInspector/Proofs/FailedRefreshes.lean
  ===========================================
  **A refresh that fails leaves no trace.**

  What is fetched goes into the inspector only once its payload is a tree (`refresh_of_fault`).  So
  after a fetch that failed or brought something else the operator has a message, and the inspector
  is the old one: for the event, and for a recorded click, whose step and message stay.

  All that an inspection knows of its device are the answers to the calls that it makes.  If another
  device answers these in the same way (`Device.AnswersAlike`), an input makes the same of it
  (`receive_answersAlike`), and so do all inputs that follow (`goOnAlike`).  Since a refresh that failed
  changes nothing but the state of the device, the session goes on as if it had not been requested.
-/
import ScreenInspector.Proofs.OfflineRecording
import ScreenInspector.Proofs.WholeClicks

namespace ScreenInspector

variable {σ σ' : Type}

/-! ### Answers to the same calls -/

/-- Two devices in given states answer some calls, one after the other, in the same way. -/
def Device.AnswersAlike (d : Device σ) (d' : Device σ') : σ → σ' → List DeviceCall → Prop
  | _, _, [] => True
  | state, state', .fetch :: rest =>
    (d.fetch state).1 = (d'.fetch state').1 ∧
      d.AnswersAlike d' (d.fetch state).2 (d'.fetch state').2 rest
  | state, state', .tap p :: rest =>
    (d.tap p state).1 = (d'.tap p state').1 ∧
      d.AnswersAlike d' (d.tap p state).2 (d'.tap p state').2 rest

theorem Device.answersAlike_append {d : Device σ} {d' : Device σ'} {state : σ} {state' : σ'}
    {first second : List DeviceCall} : d.AnswersAlike d' state state' (first ++ second) ↔
      d.AnswersAlike d' state state' first ∧
        d.AnswersAlike d' (d.after state first) (d'.after state' first) second := by
  induction first generalizing state state' with
  | nil => simp [AnswersAlike, after]
  | cons call rest ih =>
    cases call with
    | fetch => exact (and_congr_right fun _ => ih).trans and_assoc.symm
    | tap p => exact (and_congr_right fun _ => ih).trans and_assoc.symm

/-- A device answers like itself. -/
theorem Device.answersAlike_self (d : Device σ) (state : σ) (calls : List DeviceCall) :
    d.AnswersAlike d state state calls := by
  induction calls generalizing state with
  | nil => trivial
  | cons call rest ih =>
    cases call with
    | fetch => exact ⟨rfl, ih _⟩
    | tap p => exact ⟨rfl, ih _⟩

/-- A connection after more calls. -/
def Connection.after (d : Device σ) (c : Connection σ) (calls : List DeviceCall) : Connection σ :=
  ⟨d.after c.state calls, calls.reverse ++ c.calls⟩

theorem Connection.after_append (d : Device σ) (c : Connection σ)
    (first second : List DeviceCall) :
    c.after d (first ++ second) = (c.after d first).after d second := by
  simp [after, Device.after_append]

/-! ### Sessions with the same answers -/

variable (d : Device σ) (d' : Device σ') (c : Connection σ) (c' : Connection σ')

/-- A click makes a tap if it is admitted, and else no call. -/
theorem Recorder.click_answersAlike (r : Recorder) (t : Tree) (v : Evaluator) (asked : Questions)
    (p : Point) : ∃ calls, (r.click d t v asked p c).2.2.2 = c.after d calls ∧
      (d.AnswersAlike d' c.state c'.state calls →
        (r.click d' t v asked p c').1 = (r.click d t v asked p c).1 ∧
        (r.click d' t v asked p c').2.1 = (r.click d t v asked p c).2.1 ∧
        (r.click d' t v asked p c').2.2.2 = c'.after d' calls) := by
  rcases r.admits_or_refused t v asked p with ⟨s, hadmits⟩ | ⟨outcome, hrefused⟩
  · obtain ⟨later, hclick⟩ := hadmits.click d c
    obtain ⟨later', hclick'⟩ := hadmits.click d' c'
    rw [hclick, hclick']
    refine ⟨[.tap p], rfl, ?_⟩
    rintro ⟨htap, -⟩
    exact ⟨congrArg (outcomeOfTap s) htap.symm, rfl, rfl⟩
  · obtain ⟨later, hclick⟩ := hrefused.click d c
    obtain ⟨later', hclick'⟩ := hrefused.click d' c'
    rw [hclick, hclick']
    exact ⟨[], rfl, fun _ => ⟨rfl, rfl, rfl⟩⟩

namespace Inspector

theorem refresh_answersAlike (i : Inspector) (h : (c.fetch d).1 = (c'.fetch d').1) :
    (i.refresh d' c').1 = (i.refresh d c).1 ∧ (i.refresh d' c').2.1 = (i.refresh d c).2.1 ∧
      (i.refresh d' c').2.2 = (c'.fetch d').2 := by
  simp only [refresh, h]
  cases i.load (c'.fetch d').1 with
  | error e => exact ⟨rfl, rfl, rfl⟩
  | ok loaded => exact ⟨rfl, rfl, rfl⟩

/-- A click makes the calls of its recorder, and fetches after a step that was tapped. -/
theorem pointerClick_answersAlike (i : Inspector) (shown : Point) :
    ∃ calls, (i.pointerClick d c shown).2.2 = c.after d calls ∧
      (d.AnswersAlike d' c.state c'.state calls →
        (i.pointerClick d' c' shown).1 = (i.pointerClick d c shown).1 ∧
        (i.pointerClick d' c' shown).2.1 = (i.pointerClick d c shown).2.1 ∧
        (i.pointerClick d' c' shown).2.2 = c'.after d' calls) := by
  rw [pointerClick, pointerClick]
  cases i.tree? with
  | none => exact ⟨[], rfl, fun _ => ⟨rfl, rfl, rfl⟩⟩
  | some t =>
    dsimp only
    obtain ⟨calls, hcalls, halike⟩ := i.recorder.click_answersAlike d d' c c' t t.evaluator []
      (i.scale.toDevice shown)
    generalize i.recorder.click d t t.evaluator [] (i.scale.toDevice shown) c = first at *
    generalize i.recorder.click d' t t.evaluator [] (i.scale.toDevice shown) c' = second at *
    obtain ⟨outcome, r, asked, tapped⟩ := first
    obtain ⟨outcome', r', asked', tapped'⟩ := second
    dsimp only at hcalls halike
    subst hcalls
    -- The outcome on the first device decides which calls are to be answered alike.
    cases outcome with
    | recorded s =>
      obtain ⟨-, hconnection⟩ := refresh_spec d { i with recorder := r } (c.after d calls)
      refine ⟨calls ++ [.fetch], ?_, fun hanswers => ?_⟩
      · rw [Connection.after_append]
        exact hconnection
      · obtain ⟨hfirst, hfetch, -⟩ := Device.answersAlike_append.mp hanswers
        obtain ⟨rfl, rfl, rfl⟩ := halike hfirst
        obtain ⟨hupdate, hnext, hconnection'⟩ := refresh_answersAlike d d' (c.after d calls)
          (c'.after d' calls) { i with recorder := r' } hfetch
        dsimp only
        rw [hupdate, hnext, hconnection', Connection.after_append]
        exact ⟨rfl, rfl, rfl⟩
    | _ =>
      refine ⟨calls, rfl, fun hanswers => ?_⟩
      obtain ⟨rfl, rfl, rfl⟩ := halike hanswers
      exact ⟨rfl, rfl, rfl⟩

/-- **What becomes of an input** depends on the inspector and on the answers to the calls that the
input makes. -/
theorem receive_answersAlike (i : Inspector) (input : Input) :
    ∃ calls, (i.receive d c input).2 = c.after d calls ∧
      (d.AnswersAlike d' c.state c'.state calls →
        i.reply? d' c' input = i.reply? d c input ∧
        (i.receive d' c' input).1 = (i.receive d c input).1 ∧
        (i.receive d' c' input).2 = c'.after d' calls) := by
  cases input with
  | shown width height => exact ⟨[], rfl, fun _ => ⟨rfl, rfl, rfl⟩⟩
  | event e =>
    cases e with
    | pointerClick shown =>
      obtain ⟨calls, hcalls, halike⟩ := i.pointerClick_answersAlike d d' c c' shown
      refine ⟨calls, hcalls, fun hanswers => ?_⟩
      obtain ⟨hupdate, hnext, hconnection⟩ := halike hanswers
      exact ⟨congrArg some hupdate, hnext, hconnection⟩
    | refresh =>
      refine ⟨[.fetch], (refresh_spec d i c).2, ?_⟩
      rintro ⟨hfetch, -⟩
      obtain ⟨hupdate, hnext, hconnection⟩ := i.refresh_answersAlike d d' c c' hfetch
      exact ⟨congrArg some hupdate, hnext, hconnection⟩
    | _ => exact ⟨[], rfl, fun _ => ⟨rfl, rfl, rfl⟩⟩

/-- Two sessions go on alike: whatever the inputs, if the device of the second answers the calls of
the first in the same way, the second answers the inputs the same, ends in the same state, and makes
the same calls. -/
def GoOnAlike (d : Device σ) (i : Inspector) (c : Connection σ) (d' : Device σ') (i' : Inspector)
    (c' : Connection σ') : Prop :=
  ∀ inputs, ∃ calls, (resume d i c inputs).2 = c.after d calls ∧
    (d.AnswersAlike d' c.state c'.state calls →
      log d' i' c' inputs = log d i c inputs ∧
      (resume d' i' c' inputs).1 = (resume d i c inputs).1 ∧
      (resume d' i' c' inputs).2 = c'.after d' calls)

/-- **Only the answers of a device matter** to a session. -/
theorem goOnAlike (i : Inspector) : GoOnAlike d i c d' i c' := by
  intro inputs
  induction inputs generalizing i c c' with
  | nil => exact ⟨[], rfl, fun _ => ⟨rfl, rfl, rfl⟩⟩
  | cons input rest ih =>
    obtain ⟨calls, hcalls, halike⟩ := i.receive_answersAlike d d' c c' input
    obtain ⟨more, hmore, hrest⟩ := ih (c.after d calls) (c'.after d' calls) (i.receive d c input).1
    rw [resume_cons, hcalls]
    refine ⟨calls ++ more, by rw [hmore, Connection.after_append], fun hanswers => ?_⟩
    obtain ⟨hfirst, hlater⟩ := Device.answersAlike_append.mp hanswers
    obtain ⟨hreply, hnext, hconnection⟩ := halike hfirst
    obtain ⟨hlog, hend, hcalls'⟩ := hrest hlater
    rw [resume_cons, hnext, hconnection]
    refine ⟨?_, hend, by rw [hcalls', Connection.after_append]⟩
    rw [log_cons, log_cons, hreply, hnext, hconnection, hlog, hcalls]

/-! ### The main result -/

/-- **A refresh that fails leaves no trace**, whatever the state of the inspection and whether the
fetch failed or brought a payload that is no tree.  It is answered by one message and nothing else,
and the inspector stays as it is.  If it follows a recorded click, the message comes after that of
the click, the update keeps the step, and the inspector has the recorder after the click and is else
the old one.  From then on the session goes on like every session without the refresh whose device
gives the same answers. -/
theorem failed_refresh_leaves_no_trace (d : Device σ) (i : Inspector) (c : Connection σ) :
    (∀ e, RefreshFault i.configuration.webViewKind (c.fetch d).1 e →
      i.handle d c .refresh =
        ({ notices := [⟨.error, "Unable to refresh: " ++ e.message⟩] }, i, (c.fetch d).2) ∧
      ∀ (σ' : Type) (d' : Device σ') (c' : Connection σ'),
        GoOnAlike d i (c.fetch d).2 d' i c') ∧
    ∀ t shown s r asked tapped e, i.tree? = some t →
      i.recorder.click d t t.evaluator [] (i.scale.toDevice shown) c =
        (.recorded s, r, asked, tapped) →
      RefreshFault i.configuration.webViewKind (tapped.fetch d).1 e →
      i.handle d c (.pointerClick shown) =
        ({ notices := [⟨.info, "Recorded step " ++ toString s.index ++ ": " ++ s.locator⟩,
             ⟨.error, "Unable to refresh: " ++ e.message⟩]
           recorded := some s }, { i with recorder := r }, (tapped.fetch d).2) ∧
      ∀ (σ' : Type) (d' : Device σ') (c' : Connection σ'),
        GoOnAlike d { i with recorder := r } (tapped.fetch d).2 d' { i with recorder := r } c' := by
  refine ⟨?refresh, ?click⟩
  case refresh =>
    intro e hfault
    exact ⟨refresh_of_fault hfault, fun _ d' c' => goOnAlike d d' _ c' i⟩
  case click =>
    intro t shown s r asked tapped e htree hclick hfault
    refine ⟨?_, fun _ d' c' => goOnAlike d d' _ c' _⟩
    have hrefresh := refresh_of_fault (i := { i with recorder := r }) hfault
    show i.pointerClick d c shown = _
    simp only [pointerClick, htree, hclick, hrefresh]
    rw [Update.followedBy_of_not_refreshed rfl]
    rfl

/-- While every fetch fails, a refresh does not show in what follows, and a click on a web view is
recorded. -/
theorem click_web_unrefreshed :
    let i := (new { record := true }).loading ⟨nativeScreenTree, ⟨[], 1, 1⟩⟩
    let c := Connection.opened ({ failsFetch := true } : Playback)
    (∀ inputs, log Playback.device i c inputs =
      log Playback.device i (c.fetch Playback.device).2 inputs) ∧
    ∃ s, s.point = ⟨2.0, 3.0⟩ ∧
      let (u, i', _) := i.handle Playback.device c (.pointerClick ⟨2.0, 3.0⟩)
      u.recorded = some s ∧ u.notices.map Notice.severity = [.info, .error] ∧
      i' = { i with recorder := (i.recorder.push s).released } := by
  obtain ⟨web, hweb, l, hl, -⟩ := succeeds_web
  intro i c
  obtain ⟨hrefresh, hclick⟩ := failed_refresh_leaves_no_trace Playback.device i c
  have hpoint : i.scale.toDevice ⟨2.0, 3.0⟩ = ⟨2.0, 3.0⟩ := Scale.toDevice_identity _
  have hfinds : i.recorder.Finds nativeScreenTree nativeScreenTree.evaluator []
      (i.scale.toDevice ⟨2.0, 3.0⟩) web l
      (Locator.synthesize nativeScreenTree.evaluator [] web.element).2 :=
    ⟨rfl, rfl, by rw [hpoint, hweb], by rw [← hl]⟩
  obtain ⟨later, hrecorded⟩ := (Recorder.admits_of_isConsistent
    (Evaluator.isConsistent_ofSource _) hfinds).click Playback.device c
  refine ⟨?_, ⟨1, l.expression, .click, i.scale.toDevice ⟨2.0, 3.0⟩⟩, hpoint, ?_⟩
  · intro inputs
    obtain ⟨calls, -, halike⟩ := (hrefresh _ (.fetch _)).2 Playback Playback.device c inputs
    exact (halike (Playback.device.answersAlike_self c.state calls)).1
  · rw [(hclick nativeScreenTree ⟨2.0, 3.0⟩ _ _ later _ _ rfl hrecorded (.fetch _)).1]
    exact ⟨rfl, rfl, rfl⟩

end Inspector

end ScreenInspector
