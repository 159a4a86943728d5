/-
  ScreenInspector/Proofs/InspectionTurns.lean
  ===========================================
  **What an input does to the state of an inspection.**

  Apart from its recorder an inspector has a current snapshot, a scale, a selection and two
  switches.  `Turn` says all that an input can do to them and to the connection: the size of the
  picture changes, a switch is pressed, something is selected or nothing any more, or the device is
  called, and then a fetch may bring a new snapshot (`receive_turn`).  Only these few cases are left
  for an invariant of runs.
-/
import ScreenInspector.Proofs.RecordingRuns

namespace ScreenInspector

variable {σ : Type}

/-- The snapshot that an answer to a fetch makes the current one. -/
def Loaded.ofAnswer? (kind : String) : Except InspectionError Snapshot → Option Loaded
  | .error _ => none
  | .ok s =>
    match Tree.ofPayload s.payload kind with
    | .error _ => none
    | .ok t => some ⟨t, s.screenshot⟩

/-- Why a fetch brings no new snapshot: it failed, or its payload is no tree. -/
inductive RefreshFault (kind : String) :
    Except InspectionError Snapshot → InspectionError → Prop
  | fetch (e : InspectionError) : RefreshFault kind (.error e) e
  | payload {s : Snapshot} {cause : Malformation}
      (rejected : Tree.ofPayload s.payload kind = .error cause) :
      RefreshFault kind (.ok s) (.malformed cause)

theorem RefreshFault.ofAnswer?_eq {kind : String} {answer : Except InspectionError Snapshot}
    {e : InspectionError} (h : RefreshFault kind answer e) :
    Loaded.ofAnswer? kind answer = none := by
  cases h with
  | fetch e => rfl
  | payload hrejected => simp [Loaded.ofAnswer?, hrejected]

/-- A reference can be selected if it belongs to a node or is the only one that an expression
selects. -/
def Tree.Offers (t : Tree) (reference : String) : Prop :=
  (∃ n ∈ t.nodes, n.reference = reference) ∨
    ∃ expression, t.evaluator.answer [] expression = .ok [reference]

namespace Inspector

/-- A snapshot becomes the current one. -/
def loading (i : Inspector) (l : Loaded) : Inspector :=
  { i with
    loaded := some l
    generation := i.generation + 1
    scale := scaleOf i.shownSize (some l.screenshot)
    latestSelection := none }

/-- A call of the device that is no fetch, or none. -/
def Tapped (d : Device σ) (c c' : Connection σ) : Prop :=
  c' = c ∨ ∃ p, c' = (c.tap d p).2

/-- **All that an input can do** to an inspector and its connection. -/
inductive Turn (d : Device σ) (i : Inspector) (c : Connection σ) :
    Input → Inspector → Connection σ → Prop
  | shown (width height : Float) : Turn d i c (.shown width height) (i.setShownSize width height) c
  | locked : Turn d i c (.event (.key .toggleLock)) { i with isLocked := !i.isLocked } c
  | searchShown :
    Turn d i c (.event (.key .toggleSearch)) { i with isSearchShown := !i.isSearchShown } c
  | selected {e : Event} {t : Tree} {reference : String} (notKey : ∀ command, e ≠ .key command)
      (tree_eq : i.tree? = some t) (offers : t.Offers reference) :
    Turn d i c (.event e) (i.selecting reference) c
  | deselected {e : Event} (notKey : ∀ command, e ≠ .key command) :
    Turn d i c (.event e) { i with latestSelection := none } c
  | kept {e : Event} {r : Recorder} {c' : Connection σ} (notKey : ∀ command, e ≠ .key command)
      (tapped : Tapped d c c') :
    Turn d i c (.event e) { i with recorder := r } c'
  | loaded {e : Event} {r : Recorder} {c' : Connection σ} {l : Loaded}
      (notKey : ∀ command, e ≠ .key command) (tapped : Tapped d c c')
      (answer_eq : Loaded.ofAnswer? i.configuration.webViewKind (c'.fetch d).1 = some l) :
    Turn d i c (.event e) ({ i with recorder := r }.loading l) (c'.fetch d).2
  | notLoaded {e : Event} {r : Recorder} {c' : Connection σ}
      (notKey : ∀ command, e ≠ .key command) (tapped : Tapped d c c')
      (answer_eq : Loaded.ofAnswer? i.configuration.webViewKind (c'.fetch d).1 = none) :
    Turn d i c (.event e) { i with recorder := r } (c'.fetch d).2

variable {d : Device σ} {i : Inspector} {c : Connection σ}

/-! ### Events that call the device -/

/-- A refresh that fails is a message and nothing else. -/
theorem refresh_of_fault {e : InspectionError}
    (h : RefreshFault i.configuration.webViewKind (c.fetch d).1 e) :
    i.refresh d c = (.notice .error ("Unable to refresh: " ++ e.message), i, (c.fetch d).2) := by
  simp only [refresh]
  generalize (c.fetch d).1 = answer at h ⊢
  cases h with
  | fetch e => rfl
  | payload hrejected => simp only [load, hrejected]

/-- **What a refresh does**: it fails with a message, or it loads what was fetched. -/
theorem refresh_cases (d : Device σ) (i : Inspector) (c : Connection σ) :
    (∃ e, RefreshFault i.configuration.webViewKind (c.fetch d).1 e ∧
      i.refresh d c = (.notice .error ("Unable to refresh: " ++ e.message), i, (c.fetch d).2)) ∨
    ∃ l, Loaded.ofAnswer? i.configuration.webViewKind (c.fetch d).1 = some l ∧
      i.refresh d c =
        ({ notices := [⟨.info, "Loaded " ++ toString l.tree.size ++ " elements"⟩]
           isRefreshed := true
           webViewMarkup := l.tree.webViewMarkup? }, i.loading l, (c.fetch d).2) := by
  cases hanswer : (c.fetch d).1 with
  | error e =>
    have hfault : RefreshFault i.configuration.webViewKind (c.fetch d).1 e := hanswer ▸ .fetch e
    exact Or.inl ⟨e, .fetch e, refresh_of_fault hfault⟩
  | ok s =>
    cases htree : Tree.ofPayload s.payload i.configuration.webViewKind with
    | error cause =>
      have hfault : RefreshFault i.configuration.webViewKind (c.fetch d).1 (.malformed cause) :=
        hanswer ▸ .payload htree
      exact Or.inl ⟨_, .payload htree, refresh_of_fault hfault⟩
    | ok t =>
      refine Or.inr ⟨⟨t, s.screenshot⟩, by simp [Loaded.ofAnswer?, htree], ?_⟩
      simp only [refresh, hanswer, load, htree]
      rfl

theorem refresh_turn {e : Event} {r : Recorder} {c' : Connection σ}
    (notKey : ∀ command, e ≠ .key command) (tapped : Tapped d c c') :
    Turn d i c (.event e) ({ i with recorder := r }.refresh d c').2.1
      ({ i with recorder := r }.refresh d c').2.2 := by
  rcases refresh_cases d { i with recorder := r } c' with
    ⟨fault, hfault, hrefresh⟩ | ⟨l, hloaded, hrefresh⟩
  · rw [hrefresh]
    exact .notLoaded notKey tapped hfault.ofAnswer?_eq
  · rw [hrefresh]
    exact .loaded notKey tapped hloaded

theorem click_tapped (r : Recorder) (d : Device σ) (t : Tree) (v : Evaluator) (asked : Questions)
    (p : Point) (c : Connection σ) : Tapped d c (r.click d t v asked p c).2.2.2 := by
  rw [Recorder.click]
  split
  · exact Or.inl rfl
  · exact Or.inr ⟨p, rfl⟩

theorem pointerClick_turn (d : Device σ) (i : Inspector) (c : Connection σ) (shown : Point) :
    Turn d i c (.event (.pointerClick shown)) (i.pointerClick d c shown).2.1
      (i.pointerClick d c shown).2.2 := by
  have notKey : ∀ command, Event.pointerClick shown ≠ .key command := by simp
  rw [pointerClick]
  cases htree : i.tree? with
  | none => exact .kept notKey (Or.inl rfl)
  | some t =>
    dsimp only
    have htapped := click_tapped i.recorder d t t.evaluator [] (i.scale.toDevice shown) c
    generalize i.recorder.click d t t.evaluator [] (i.scale.toDevice shown) c = clicked at htapped
    obtain ⟨outcome, r, asked, c'⟩ := clicked
    cases outcome with
    | recorded step => exact refresh_turn notKey htapped
    | ignored => exact .kept notKey htapped
    | noElement point => exact .kept notKey htapped
    | failed error => exact .kept notKey htapped
    | tapFailed step error => exact .kept notKey htapped

/-- **Every input is a turn** of these. -/
theorem receive_turn (d : Device σ) (i : Inspector) (c : Connection σ) (input : Input) :
    Turn d i c input (i.receive d c input).1 (i.receive d c input).2 := by
  cases input with
  | shown width height => exact .shown width height
  | event e =>
    cases e with
    | pointerMove shown =>
      show Turn d i c _ (i.pointerMove shown).2 c
      rcases pointerMove_cases i shown with hkept | ⟨t, n, htree, hn, hselected⟩
      · rw [hkept]
        exact .kept (by simp) (Or.inl rfl)
      · rw [hselected]
        exact .selected (by simp) htree (Or.inl ⟨n, hn, rfl⟩)
    | pointerClick shown => exact pointerClick_turn d i c shown
    | treeHover reference =>
      show Turn d i c _ (i.treeHover reference).2 c
      rcases treeHover_cases i reference with hkept | ⟨t, n, htree, hn, hselected⟩
      · rw [hkept]
        exact .kept (by simp) (Or.inl rfl)
      · rw [hselected]
        exact .selected (by simp) htree (Or.inl ⟨n, hn, rfl⟩)
    | key command =>
      cases command with
      | toggleLock => exact .locked
      | toggleSearch => exact .searchShown
    | locatorInput expression =>
      show Turn d i c _ (i.locatorInput expression).2 c
      rcases locatorInput_cases i expression with hkept | hcleared | ⟨t, r, htree, hanswer, hselected⟩
      · rw [hkept]
        exact .kept (by simp) (Or.inl rfl)
      · rw [hcleared]
        exact .deselected (by simp)
      · rw [hselected]
        exact .selected (by simp) htree (Or.inr ⟨expression, hanswer⟩)
    | refresh => exact refresh_turn (by simp) (Or.inl rfl)

end Inspector

end ScreenInspector
