/-
  ScreenInspector/Proofs/InspectorStates.lean
  ===========================================
  **The state of an inspection after any run.**

  The current snapshot, its generation and the selection go along with the fetches: an inspector has
  the last snapshot that could be loaded, and as many generations as there were such snapshots
  (`Current`).  The size of the picture and the two switches go along with the inputs (`Steered`).
  The scale depends on both, so it has to be right after a new size as well as after a new snapshot.
  Every turn preserves both, hence every run has them.
-/
import ScreenInspector.Proofs.InspectionTurns
import Mathlib.Algebra.Ring.Parity

namespace ScreenInspector

variable {σ : Type}

open Float.Model in
/-- A positive number is no zero. -/
theorem Number.beq_zero_of_pos {x : Float} (h : 0.0 < x) : (x == 0.0) = false := by
  have hless : UnpackedFloat.lt (0.0 : Float).toModel.unpack x.toModel.unpack = true :=
    of_decide_eq_true h
  have hzero : (0.0 : Float).toModel.unpack = .zero .positive := rfl
  show (x.toModel.unpack.compare (0.0 : Float).toModel.unpack == some .eq) = false
  rw [hzero] at hless ⊢
  generalize x.toModel.unpack = u at hless ⊢
  cases u with
  | notANumber => rfl
  | infinity sign => cases sign <;> rfl
  | zero sign => cases hless
  | finite sign m e hm => cases sign <;> rfl

/-! ### Scales -/

theorem Scale.isUsable_identity : isUsable identity.factor = true := by
  decide

theorem Scale.isUsable_ofWidths (shown natural : Float) :
    isUsable (ofWidths shown natural).factor = true := by
  rw [ofWidths]
  split
  next husable => exact husable
  next => exact isUsable_identity

namespace Inspector

variable {shownSize : Option (Float × Float)} {s : Screenshot}

theorem scaleOf_of_hasSize (h : s.hasSize = true) (width height : Float) :
    scaleOf (some (width, height)) (some s) = Scale.ofWidths width (Number.ofNat s.width) :=
  if_pos h

theorem scaleOf_of_not_hasSize (h : s.hasSize = false) : scaleOf shownSize (some s) = .identity := by
  cases shownSize with
  | none => rfl
  | some size => simp [scaleOf, h]

theorem scaleOf_none (shownSize : Option (Float × Float)) : scaleOf shownSize none = .identity := by
  cases shownSize with
  | none => rfl
  | some size => rfl

theorem isUsable_scaleOf (shownSize : Option (Float × Float)) (screenshot : Option Screenshot) :
    Scale.isUsable (scaleOf shownSize screenshot).factor = true := by
  cases shownSize with
  | none => exact Scale.isUsable_identity
  | some size =>
    cases screenshot with
    | none => exact Scale.isUsable_identity
    | some s =>
      cases hsize : s.hasSize with
      | true =>
        rw [scaleOf_of_hasSize hsize]
        exact Scale.isUsable_ofWidths _ _
      | false =>
        rw [scaleOf_of_not_hasSize hsize]
        exact Scale.isUsable_identity

end Inspector

/-! ### What the device delivered -/

namespace Device

variable (d : Device σ)

/-- The answers to the fetches among some calls, from a state on. -/
def answers : σ → List DeviceCall → List (Except InspectionError Snapshot)
  | _, [] => []
  | state, .fetch :: rest => (d.fetch state).1 :: answers (d.fetch state).2 rest
  | state, .tap p :: rest => answers (d.tap p state).2 rest

/-- The snapshots that some calls delivered and that could be loaded. -/
def loads (kind : String) (state : σ) (calls : List DeviceCall) : List Loaded :=
  (d.answers state calls).filterMap (Loaded.ofAnswer? kind)

theorem answers_append (state : σ) (first second : List DeviceCall) :
    d.answers state (first ++ second) =
      d.answers state first ++ d.answers (d.after state first) second := by
  induction first generalizing state with
  | nil => rfl
  | cons call rest ih =>
    cases call with
    | fetch => exact congrArg _ (ih _)
    | tap p => exact ih _

theorem loads_append (kind : String) (state : σ) (first second : List DeviceCall) :
    d.loads kind state (first ++ second) =
      d.loads kind state first ++ d.loads kind (d.after state first) second := by
  rw [loads, answers_append, List.filterMap_append]
  rfl

end Device

/-! ### Inputs -/

namespace Input

/-- The size that an input gives to the picture. -/
def size? : Input → Option (Float × Float)
  | .shown width height => some (width, height)
  | .event _ => none

def presses (command : KeyCommand) : Input → Bool
  | .event (.key pressed) => pressed == command
  | _ => false

end Input

namespace Inspector

/-- The current snapshot is the last that could be loaded, and the generations count them; the
selection was made in this generation, and the scale fits the picture. -/
structure Current (d : Device σ) (configuration : Configuration) (state : σ) (i : Inspector)
    (c : Connection σ) : Prop where
  configuration_eq : i.configuration = configuration
  state_eq : c.state = d.after state c.history
  generation_eq : i.generation = (d.loads configuration.webViewKind state c.history).length
  loaded_eq : i.loaded = (d.loads configuration.webViewKind state c.history).getLast?
  selected : ∀ s, i.latestSelection = some s → s.generation = i.generation
  scale_eq : i.scale = scaleOf i.shownSize i.screenshot?

/-- The size of the picture is the last that was given, and a switch is on iff it was pressed an odd
number of times. -/
structure Steered (inputs : List Input) (i : Inspector) : Prop where
  shownSize_eq : i.shownSize = (inputs.filterMap Input.size?).getLast?
  isLocked_iff : i.isLocked = true ↔ Odd (inputs.countP (Input.presses .toggleLock))
  isSearchShown_iff : i.isSearchShown = true ↔ Odd (inputs.countP (Input.presses .toggleSearch))

variable {d : Device σ} {configuration : Configuration} {state : σ} {i i' : Inspector}
  {c c' : Connection σ} {inputs : List Input} {input : Input}

theorem current_new (d : Device σ) (configuration : Configuration) (state : σ) :
    Current d configuration state (new configuration) (.opened state) where
  configuration_eq := rfl
  state_eq := rfl
  generation_eq := rfl
  loaded_eq := rfl
  selected := by simp [new]
  scale_eq := rfl

/-- A tap brings no snapshot. -/
theorem Current.tapped (h : Current d configuration state i c) (htapped : Tapped d c c')
    (r : Recorder) : Current d configuration state { i with recorder := r } c' := by
  rcases htapped with rfl | ⟨p, rfl⟩
  · exact ⟨h.configuration_eq, h.state_eq, h.generation_eq, h.loaded_eq, h.selected, h.scale_eq⟩
  · have hloads : d.loads configuration.webViewKind state (c.tap d p).2.history =
        d.loads configuration.webViewKind state c.history := by
      rw [Connection.history_tap, Device.loads_append]
      exact List.append_nil _
    refine ⟨h.configuration_eq, ?_, ?_, ?_, h.selected, h.scale_eq⟩
    · rw [Connection.history_tap, Device.after_append, ← h.state_eq]
      rfl
    · rw [hloads]
      exact h.generation_eq
    · rw [hloads]
      exact h.loaded_eq

theorem Current.loads_fetch (h : Current d configuration state i c) :
    d.loads configuration.webViewKind state (c.fetch d).2.history =
      d.loads configuration.webViewKind state c.history ++
        (Loaded.ofAnswer? configuration.webViewKind (c.fetch d).1).toList := by
  rw [Connection.history_fetch, Device.loads_append, ← h.state_eq]
  rfl

theorem Current.fetched (h : Current d configuration state i c) :
    (c.fetch d).2.state = d.after state (c.fetch d).2.history := by
  rw [Connection.history_fetch, Device.after_append, ← h.state_eq]
  rfl

/-- **Every turn preserves what is current.** -/
theorem Current.turn (h : Current d configuration state i c) (ht : Turn d i c input i' c') :
    Current d configuration state i' c' := by
  cases ht with
  | shown width height =>
    exact ⟨h.configuration_eq, h.state_eq, h.generation_eq, h.loaded_eq, h.selected, rfl⟩
  | locked =>
    exact ⟨h.configuration_eq, h.state_eq, h.generation_eq, h.loaded_eq, h.selected, h.scale_eq⟩
  | searchShown =>
    exact ⟨h.configuration_eq, h.state_eq, h.generation_eq, h.loaded_eq, h.selected, h.scale_eq⟩
  | selected notKey tree_eq offers =>
    refine ⟨h.configuration_eq, h.state_eq, h.generation_eq, h.loaded_eq, ?_, h.scale_eq⟩
    rintro s hs
    obtain rfl := Option.some.inj hs
    rfl
  | deselected notKey =>
    exact ⟨h.configuration_eq, h.state_eq, h.generation_eq, h.loaded_eq, by simp, h.scale_eq⟩
  | kept notKey tapped => exact h.tapped tapped _
  | @loaded e r c' l notKey tapped answer_eq =>
    have h' := h.tapped tapped r
    rw [h.configuration_eq] at answer_eq
    -- The new snapshot is the last of the loads, and the old selection is gone with its tree.
    have hloads := h'.loads_fetch
    rw [answer_eq] at hloads
    refine ⟨h'.configuration_eq, h'.fetched, ?_, ?_, by simp [loading], rfl⟩
    · rw [hloads, List.length_append, ← h'.generation_eq]
      rfl
    · rw [hloads]
      exact List.getLast?_concat.symm
  | @notLoaded e r c' notKey tapped answer_eq =>
    have h' := h.tapped tapped r
    rw [h.configuration_eq] at answer_eq
    have hloads := h'.loads_fetch
    rw [answer_eq, Option.toList_none, List.append_nil] at hloads
    refine ⟨h'.configuration_eq, h'.fetched, ?_, ?_, h'.selected, h'.scale_eq⟩
    · rw [hloads]
      exact h'.generation_eq
    · rw [hloads]
      exact h'.loaded_eq

theorem steered_new (configuration : Configuration) : Steered [] (new configuration) where
  shownSize_eq := rfl
  isLocked_iff := by simp [new]
  isSearchShown_iff := by simp [new]

/-- An input that is neither a size nor a key changes nothing of this. -/
theorem Steered.other (h : Steered inputs i) {e : Event} (notKey : ∀ command, e ≠ .key command)
    (hsize : i'.shownSize = i.shownSize) (hlocked : i'.isLocked = i.isLocked)
    (hsearch : i'.isSearchShown = i.isSearchShown) : Steered (inputs ++ [.event e]) i' := by
  have hpresses : ∀ command, Input.presses command (.event e) = false := by
    intro command
    cases e with
    | key pressed => exact absurd rfl (notKey pressed)
    | _ => rfl
  refine ⟨?_, ?_, ?_⟩
  · rw [hsize, h.shownSize_eq, List.filterMap_append]
    simp [Input.size?]
  · rw [hlocked, h.isLocked_iff, List.countP_append]
    simp [hpresses]
  · rw [hsearch, h.isSearchShown_iff, List.countP_append]
    simp [hpresses]

/-- **Every turn goes along with its input.** -/
theorem Steered.turn (h : Steered inputs i) (ht : Turn d i c input i' c') :
    Steered (inputs ++ [input]) i' := by
  cases ht with
  | shown width height =>
    refine ⟨?_, ?_, ?_⟩
    · rw [List.filterMap_append]
      simp [Input.size?, setShownSize]
    · rw [List.countP_append]
      simpa [Input.presses, setShownSize] using h.isLocked_iff
    · rw [List.countP_append]
      simpa [Input.presses, setShownSize] using h.isSearchShown_iff
  | locked =>
    refine ⟨?_, ?_, ?_⟩
    · rw [List.filterMap_append]
      simpa [Input.size?] using h.shownSize_eq
    · rw [List.countP_append]
      simp [Input.presses, Nat.odd_add_one, ← h.isLocked_iff]
    · rw [List.countP_append]
      simpa [Input.presses] using h.isSearchShown_iff
  | searchShown =>
    refine ⟨?_, ?_, ?_⟩
    · rw [List.filterMap_append]
      simpa [Input.size?] using h.shownSize_eq
    · rw [List.countP_append]
      simpa [Input.presses] using h.isLocked_iff
    · rw [List.countP_append]
      simp [Input.presses, Nat.odd_add_one, ← h.isSearchShown_iff]
  | selected notKey tree_eq offers => exact h.other notKey rfl rfl rfl
  | deselected notKey => exact h.other notKey rfl rfl rfl
  | kept notKey tapped => exact h.other notKey rfl rfl rfl
  | loaded notKey tapped answer_eq => exact h.other notKey rfl rfl rfl
  | notLoaded notKey tapped answer_eq => exact h.other notKey rfl rfl rfl

/-- **Both hold after every run.** -/
theorem current_run (d : Device σ) (configuration : Configuration) (state : σ)
    (inputs : List Input) :
    Current d configuration state (run d configuration state inputs).1
      (run d configuration state inputs).2 := by
  induction inputs using List.reverseRecOn with
  | nil => exact current_new d configuration state
  | append_singleton inputs input ih =>
    rw [run_concat]
    exact ih.turn (receive_turn d _ _ input)

theorem steered_run (d : Device σ) (configuration : Configuration) (state : σ)
    (inputs : List Input) : Steered inputs (run d configuration state inputs).1 := by
  induction inputs using List.reverseRecOn with
  | nil => exact steered_new configuration
  | append_singleton inputs input ih =>
    rw [run_concat]
    exact ih.turn (receive_turn d _ (run d configuration state inputs).2 input)

/-- **The state of an inspection after any run**, for every device, configuration and input.  The
generations count the snapshots that were loaded, the last of which is the current one; a selection
is of the current generation; the scale is that of the last size of the picture and the natural
width of the current screenshot, or the identity if either is missing or the screenshot has no size,
so no point is divided by zero; and a switch is on iff its key was pressed an odd number of times. -/
theorem state_of_run (d : Device σ) (configuration : Configuration) (state : σ)
    (inputs : List Input) :
    let (i, c) := run d configuration state inputs
    let loads := d.loads configuration.webViewKind state c.history
    i.generation = loads.length ∧ i.loaded = loads.getLast? ∧
    (i.tree?.isSome = true ↔ 0 < i.generation) ∧
    (∀ s, i.latestSelection = some s → s.generation = i.generation) ∧
    (∀ width height screenshot, (inputs.filterMap Input.size?).getLast? = some (width, height) →
      i.screenshot? = some screenshot → 0 < screenshot.width → 0 < screenshot.height →
      i.scale = Scale.ofWidths width (Number.ofNat screenshot.width)) ∧
    ((inputs.filterMap Input.size? = [] ∨ i.screenshot? = none ∨
        ∃ screenshot, i.screenshot? = some screenshot ∧
          (screenshot.width = 0 ∨ screenshot.height = 0)) →
      i.scale = Scale.identity) ∧
    (Number.isFinite i.scale.factor = true ∧ 0.0 < i.scale.factor ∧
      (i.scale.factor == 0.0) = false) ∧
    (i.isLocked = true ↔ Odd (inputs.countP (Input.presses .toggleLock))) ∧
    (i.isSearchShown = true ↔ Odd (inputs.countP (Input.presses .toggleSearch))) := by
  have hcurrent := current_run d configuration state inputs
  have hsteered := steered_run d configuration state inputs
  revert hcurrent hsteered
  obtain ⟨i, c⟩ := run d configuration state inputs
  intro hcurrent hsteered
  have hscale := hcurrent.scale_eq
  rw [hsteered.shownSize_eq] at hscale
  refine ⟨hcurrent.generation_eq, hcurrent.loaded_eq, ?_, hcurrent.selected, ?_, ?_, ?_,
    hsteered.isLocked_iff, hsteered.isSearchShown_iff⟩
  · rw [tree?, Option.isSome_map, hcurrent.loaded_eq, hcurrent.generation_eq, List.length_pos_iff,
      Option.isSome_iff_ne_none, ne_eq, List.getLast?_eq_none_iff]
  · intro width height screenshot hsize hscreenshot hwidth hheight
    have hasSize : screenshot.hasSize = true := by
      rw [Screenshot.hasSize, Bool.and_eq_true, bne_iff_ne, bne_iff_ne]
      exact ⟨Nat.ne_of_gt hwidth, Nat.ne_of_gt hheight⟩
    rw [hscale, hsize, hscreenshot]
    exact scaleOf_of_hasSize hasSize width height
  · rintro (hsize | hscreenshot | ⟨screenshot, hscreenshot, hempty⟩)
    · rw [hscale, hsize]
      rfl
    · rw [hscale, hscreenshot]
      exact scaleOf_none _
    · have hasSize : screenshot.hasSize = false := by
        rw [Screenshot.hasSize, Bool.and_eq_false_iff, bne_eq_false_iff_eq, bne_eq_false_iff_eq]
        exact hempty
      rw [hscale, hscreenshot]
      exact scaleOf_of_not_hasSize hasSize
  · have husable := isUsable_scaleOf (inputs.filterMap Input.size?).getLast? i.screenshot?
    rw [← hscale, Scale.isUsable, Bool.and_eq_true, decide_eq_true_iff] at husable
    exact ⟨husable.1, husable.2, Number.beq_zero_of_pos husable.2⟩

end Inspector

end ScreenInspector
