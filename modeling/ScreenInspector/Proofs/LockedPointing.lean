/-
  ScreenInspector/Proofs/LockedPointing.lean
  ==========================================
  **A lock freezes pointing.**

  While the selection is locked, a move of the pointer and a hover over the tree view leave the
  inspection as it is and are answered by nothing.  No other input but the key of the lock opens it.
  So a stretch of inputs without that key goes on as if nobody had pointed, with the same calls and
  the same updates (`resume_withoutPointing`, `log_withoutPointing`).  What is left to change the
  selection are expressions, and snapshots that a refresh or a recorded click loads
  (`selection?_receive`).
-/
import ScreenInspector.Proofs.AnsweredRuns
import ScreenInspector.Proofs.SelectedNodes

namespace ScreenInspector

variable {σ : Type}

/-- The inputs that only point at something: moves of the pointer and hovers over the tree view. -/
def Input.points : Input → Bool
  | .event (.pointerMove _) => true
  | .event (.treeHover _) => true
  | _ => false

namespace Inspector

variable {d : Device σ} {i : Inspector} {c : Connection σ} {input : Input} {stretch : List Input}

/-! ### Pointing at a locked selection -/

/-- **Pointing does nothing** while the selection is locked. -/
theorem receive_of_points (hlocked : i.isLocked = true) (hpoints : input.points = true) :
    i.receive d c input = (i, c) ∧ i.reply? d c input = some .nothing := by
  cases input with
  | shown width height => cases hpoints
  | event e =>
    cases e with
    | pointerMove shown =>
      have hmove : i.pointerMove shown = (.nothing, i) := by rw [pointerMove, if_pos hlocked]
      simp [receive, reply?, handle, hmove]
    | treeHover reference =>
      have hhover : i.treeHover reference = (.nothing, i) := by rw [treeHover, if_pos hlocked]
      simp [receive, reply?, handle, hhover]
    | pointerClick shown => cases hpoints
    | key command => cases hpoints
    | locatorInput expression => cases hpoints
    | refresh => cases hpoints

/-- **Only the key of the lock opens it.** -/
theorem isLocked_receive (hkey : input ≠ .event (.key .toggleLock)) :
    (i.receive d c input).1.isLocked = i.isLocked := by
  have hturn := receive_turn d i c input
  generalize (i.receive d c input).1 = i' at hturn ⊢
  generalize (i.receive d c input).2 = c' at hturn
  cases hturn with
  | shown width height => rfl
  | locked => exact absurd rfl hkey
  | searchShown => rfl
  | selected notKey tree_eq offers => rfl
  | deselected notKey => rfl
  | kept notKey tapped => rfl
  | loaded notKey tapped answer_eq => rfl
  | notLoaded notKey tapped answer_eq => rfl

/-- Inputs among which the lock is not touched. -/
def LeavesLock (stretch : List Input) : Prop :=
  ∀ input ∈ stretch, input ≠ .event (.key .toggleLock)

theorem LeavesLock.head {rest : List Input} (h : LeavesLock (input :: rest)) :
    input ≠ .event (.key .toggleLock) :=
  h input List.mem_cons_self

theorem LeavesLock.tail {rest : List Input} (h : LeavesLock (input :: rest)) : LeavesLock rest :=
  fun other hmem => h other (List.mem_cons_of_mem _ hmem)

theorem LeavesLock.part {part rest : List Input} (h : LeavesLock stretch)
    (heq : stretch = part ++ rest) : LeavesLock part :=
  fun other hmem => h other (heq ▸ List.mem_append_left rest hmem)

theorem isLocked_resume (h : LeavesLock stretch) :
    (resume d i c stretch).1.isLocked = i.isLocked := by
  induction stretch generalizing i c with
  | nil => rfl
  | cons input rest ih => rw [resume_cons, ih h.tail, isLocked_receive h.head]

/-! ### What is left of a stretch -/

/-- A stretch of inputs without those that only point. -/
def withoutPointing (stretch : List Input) : List Input :=
  stretch.filter fun input => !input.points

/-- **A locked stretch ends as if nobody had pointed**, in the same state and after the same
calls. -/
theorem resume_withoutPointing (hlocked : i.isLocked = true) (h : LeavesLock stretch) :
    resume d i c (withoutPointing stretch) = resume d i c stretch := by
  induction stretch generalizing i c with
  | nil => rfl
  | cons input rest ih =>
    rw [resume_cons, withoutPointing, List.filter_cons]
    cases hpoints : input.points with
    | true =>
      rw [(receive_of_points hlocked hpoints).1]
      exact ih hlocked h.tail
    | false => exact ih ((isLocked_receive h.head).trans hlocked) h.tail

/-- **The other inputs are answered as if nobody had pointed.** -/
theorem log_withoutPointing (hlocked : i.isLocked = true) (h : LeavesLock stretch) :
    log d i c (withoutPointing stretch) =
      (log d i c stretch).filter fun entry => !entry.1.points := by
  induction stretch generalizing i c with
  | nil => rfl
  | cons input rest ih =>
    rw [log_cons, withoutPointing, List.filter_cons, List.filter_cons]
    cases hpoints : input.points with
    | true =>
      rw [(receive_of_points hlocked hpoints).1]
      exact ih hlocked h.tail
    | false =>
      exact congrArg _ (ih ((isLocked_receive h.head).trans hlocked) h.tail)

/-! ### What changes a locked selection -/

/-- The answered inputs that choose a selection anew: an expression, and a refresh or a recorded
click after which a snapshot was loaded. -/
inductive Reselects : Input × Option Update → Prop
  | searched (expression : String) (u : Update) :
    Reselects (.event (.locatorInput expression), some u)
  | refreshed {u : Update} (loaded : u.isRefreshed = true) : Reselects (.event .refresh, some u)
  | clicked {shown : Point} {u : Update} {s : RecordedStep} (recorded : u.recorded = some s)
      (loaded : u.isRefreshed = true) : Reselects (.event (.pointerClick shown), some u)

/-- A refresh says that it loaded a snapshot, or changes nothing. -/
theorem refresh_loaded_or_kept (d : Device σ) (i : Inspector) (c : Connection σ) :
    (i.refresh d c).1.isRefreshed = true ∨ (i.refresh d c).2.1 = i := by
  rcases refresh_cases d i c with ⟨e, -, hrefresh⟩ | ⟨l, -, hrefresh⟩
  · exact Or.inr (by rw [hrefresh])
  · exact Or.inl (by rw [hrefresh])

/-- A click that does not load a snapshot as a recorded one keeps the selection. -/
theorem pointerClick_reselects_or_kept (d : Device σ) (i : Inspector) (c : Connection σ)
    (shown : Point) :
    Reselects (.event (.pointerClick shown), some (i.pointerClick d c shown).1) ∨
      (i.pointerClick d c shown).2.1.selection? = i.selection? := by
  rw [pointerClick]
  cases htree : i.tree? with
  | none => exact Or.inr rfl
  | some t =>
    dsimp only
    generalize i.recorder.click d t t.evaluator [] (i.scale.toDevice shown) c = clicked
    obtain ⟨outcome, r, asked, c'⟩ := clicked
    cases outcome with
    | recorded step =>
      rcases refresh_loaded_or_kept d { i with recorder := r } c' with hloaded | hkept
      · refine Or.inl (.clicked (s := step) ?_ ?_)
        · simp [Update.followedBy, hloaded, clickUpdate]
        · simp [Update.followedBy, hloaded]
      · exact Or.inr (by rw [hkept]; rfl)
    | ignored => exact Or.inr rfl
    | noElement point => exact Or.inr rfl
    | failed error => exact Or.inr rfl
    | tapFailed step error => exact Or.inr rfl

/-- **Nothing else changes a locked selection.** -/
theorem selection?_receive (hlocked : i.isLocked = true)
    (h : (i.receive d c input).1.selection? ≠ i.selection?) :
    Reselects (input, i.reply? d c input) := by
  cases input with
  | shown width height => exact absurd rfl h
  | event e =>
    cases e with
    | pointerMove shown =>
      rw [(receive_of_points hlocked rfl).1] at h
      exact absurd rfl h
    | treeHover reference =>
      rw [(receive_of_points hlocked rfl).1] at h
      exact absurd rfl h
    | pointerClick shown =>
      rcases pointerClick_reselects_or_kept d i c shown with hreselects | hkept
      · exact hreselects
      · exact absurd hkept h
    | key command =>
      cases command with
      | toggleLock => exact absurd rfl h
      | toggleSearch => exact absurd rfl h
    | locatorInput expression => exact .searched expression _
    | refresh =>
      rcases refresh_loaded_or_kept d i c with hloaded | hkept
      · exact .refreshed hloaded
      · have hsame : (i.receive d c (.event .refresh)).1 = i := hkept
        exact absurd (by rw [hsame]) h

/-- A selection that changed during a locked stretch was chosen anew by one of its inputs. -/
theorem exists_reselects (hlocked : i.isLocked = true) (hstretch : LeavesLock stretch)
    (h : (resume d i c stretch).1.selection? ≠ i.selection?) :
    ∃ entry ∈ log d i c stretch, Reselects entry := by
  induction stretch generalizing i c with
  | nil => exact absurd rfl h
  | cons input rest ih =>
    rw [resume_cons] at h
    rw [log_cons]
    by_cases hfirst : (i.receive d c input).1.selection? = i.selection?
    · have hlocked' := (isLocked_receive (d := d) (c := c) hstretch.head).trans hlocked
      rw [← hfirst] at h
      obtain ⟨entry, hmem, hreselects⟩ := ih hlocked' hstretch.tail h
      exact ⟨entry, List.mem_cons_of_mem _ hmem, hreselects⟩
    · exact ⟨_, List.mem_cons_self, selection?_receive hlocked hfirst⟩

/-! ### The main result -/

/-- **The lock freezes pointing over whole runs**, for every device and configuration, and for every
stretch of inputs after the key that locks and before it is pressed again.  Pointing leaves state and
connection as they are and is answered by nothing.  The selection is the one at the lock until an
expression, a refresh or a recorded click chooses it anew.  Without the pointing the run ends in the
same state, with the same calls, and all other inputs are answered the same. -/
theorem lock_freezes_pointing (d : Device σ) (configuration : Configuration) (state : σ)
    {before stretch : List Input} (later : List Input)
    (hopen : (run d configuration state before).1.isLocked = false)
    (hstretch : ∀ input ∈ stretch, input ≠ .event (.key .toggleLock)) :
    let (i, c) := run d configuration state (before ++ [.event (.key .toggleLock)])
    let others := stretch.filter fun input => !input.points
    (∀ part input rest, stretch = part ++ input :: rest → input.points = true →
      (resume d i c part).1.receive d (resume d i c part).2 input = resume d i c part ∧
      (resume d i c part).1.reply? d (resume d i c part).2 input = some .nothing) ∧
    (∀ part rest, stretch = part ++ rest → (resume d i c part).1.selection? ≠ i.selection? →
      ∃ entry ∈ log d i c part, Reselects entry) ∧
    resume d i c (others ++ later) = resume d i c (stretch ++ later) ∧
    log d i c (others ++ later) =
      ((log d i c stretch).filter fun entry => !entry.1.points) ++
        log d (resume d i c stretch).1 (resume d i c stretch).2 later := by
  have hlocked : (run d configuration state
      (before ++ [.event (.key .toggleLock)])).1.isLocked = true := by
    rw [run_concat]
    show (!(run d configuration state before).1.isLocked) = true
    rw [hopen]
    rfl
  generalize run d configuration state (before ++ [.event (.key .toggleLock)]) = locked at hlocked ⊢
  obtain ⟨i, c⟩ := locked
  have hends := resume_withoutPointing (d := d) (c := c) hlocked hstretch
  refine ⟨?_, ?_, ?_, ?_⟩
  · intro part input rest heq hpoints
    have hpart : LeavesLock part := LeavesLock.part hstretch heq
    exact receive_of_points ((isLocked_resume hpart).trans hlocked) hpoints
  · intro part rest heq hchanged
    exact exists_reselects hlocked (LeavesLock.part hstretch heq) hchanged
  · rw [resume_append, resume_append]
    exact congrArg (fun ended => resume d ended.1 ended.2 later) hends
  · rw [log_append, ← log_withoutPointing hlocked hstretch]
    exact congrArg (fun ended => log d i c (withoutPointing stretch) ++ log d ended.1 ended.2 later)
      hends

/-- A web view that was pointed at while a new inspection was locked leaves no trace. -/
theorem resume_locked_web :
    (run Playback.device {} (showing nativeScreen) []).1.isLocked = false ∧
    let (i, c) := run Playback.device {} (showing nativeScreen) [.event (.key .toggleLock)]
    resume Playback.device i c [.event .refresh, .event (.treeHover "web"), .shown 1 1,
        .event (.key .toggleLock)] =
      resume Playback.device i c [.event .refresh, .shown 1 1, .event (.key .toggleLock)] := by
  have hopen : (run Playback.device {} (showing nativeScreen) []).1.isLocked = false := rfl
  have hstretch : ∀ input ∈ [Input.event .refresh, .event (.treeHover "web"), .shown 1 1],
      input ≠ .event (.key .toggleLock) := by simp
  obtain ⟨-, -, hends, -⟩ := lock_freezes_pointing Playback.device {} (showing nativeScreen)
    [.event (.key .toggleLock)] hopen hstretch
  exact ⟨hopen, hends.symm⟩

end Inspector

end ScreenInspector
