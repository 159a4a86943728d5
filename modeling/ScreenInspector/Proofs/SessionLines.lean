/-
  ScreenInspector/Proofs/SessionLines.lean
  ========================================
  **Only events act in a session.**

  A line that is blank, cannot be read, or asks to be shown something writes a text and hands on the
  session it was given (`onLine_of_isInert`).  So the lines after it find the session they would find
  without it, and deleting such lines, in any places, deletes what they write and changes nothing
  else (`onLines_without`, by induction on the lines).  A line that ends the session ends it before
  anything after it is looked at (`run_of_quit`).

  Lines are cut out of a text and put together again (`linesOf_textOf`); a text without lines has
  one blank line, which is no difference to a session.
-/
import ScreenInspector.CommandLine.Session

namespace ScreenInspector.CommandLine

/-! ### Deleting lines -/

/-- The members of a list without those at deleted places, which are counted from 0. -/
def without {α : Type} (deleted : Nat → Bool) : List α → List α
  | [] => []
  | x :: rest =>
    if deleted 0 then without (fun i => deleted (i + 1)) rest
    else x :: without (fun i => deleted (i + 1)) rest

/-- The text with these lines. -/
def textOf (lines : List String) : String :=
  String.ofList (['\n'].intercalate (lines.map String.toList))

theorem without_subset {α : Type} (deleted : Nat → Bool) (xs : List α) :
    without deleted xs ⊆ xs := by
  induction xs generalizing deleted with
  | nil => exact List.Subset.refl _
  | cons x rest ih =>
    rw [without]
    split
    · exact List.subset_cons_of_subset x (ih _)
    · exact List.cons_subset_cons x (ih _)

theorem not_mem_of_mem_splitOn {α : Type} [BEq α] [LawfulBEq α] {a : α} {xs part : List α}
    (h : part ∈ xs.splitOn a) : a ∉ part := by
  induction xs generalizing part with
  | nil =>
    rw [List.mem_singleton.mp h]
    exact List.not_mem_nil
  | cons x xs ih =>
    rw [List.splitOn, List.splitOnP_cons_eq_if_modifyHead] at h
    split at h
    · rcases List.mem_cons.mp h with rfl | h
      · exact List.not_mem_nil
      · exact ih h
    next hx =>
      cases hparts : xs.splitOnP (· == a) with
      | nil => exact absurd hparts (List.splitOnP_ne_nil _ _)
      | cons first more =>
        rw [hparts, List.modifyHead_cons] at h
        have hmem : ∀ part ∈ first :: more, a ∉ part := by
          rw [← hparts]
          exact fun part hpart => ih hpart
        obtain ⟨hfirst, hmore⟩ := List.forall_mem_cons.mp hmem
        rcases List.mem_cons.mp h with rfl | h
        · rw [List.mem_cons, not_or]
          exact ⟨fun heq => hx (beq_iff_eq.mpr heq.symm), hfirst⟩
        · exact hmore part h

theorem not_mem_of_mem_linesOf {text line : String} (h : line ∈ linesOf text) :
    '\n' ∉ line.toList := by
  obtain ⟨cs, hcs, rfl⟩ := List.mem_map.mp h
  rw [String.toList_ofList]
  exact not_mem_of_mem_splitOn hcs

/-- Lines that are put together are cut apart again. -/
theorem linesOf_textOf {lines : List String} (h : ∀ line ∈ lines, '\n' ∉ line.toList)
    (hne : lines ≠ []) : linesOf (textOf lines) = lines := by
  have hsplit : (['\n'].intercalate (lines.map String.toList)).splitOn '\n' =
      lines.map String.toList := by
    apply List.splitOn_intercalate
    · intro cs hcs
      obtain ⟨line, hline, rfl⟩ := List.mem_map.mp hcs
      exact h line hline
    · exact fun hnil => hne (List.map_eq_nil_iff.mp hnil)
  rw [linesOf, textOf, String.toList_ofList, hsplit, List.map_map]
  exact List.map_id'' (fun _ => String.ofList_toList) lines

/-! ### Lines that do not act -/

/-- What only shows something. -/
def SessionCommand.isShown : SessionCommand → Bool
  | .tree | .webView | .screenshot | .script _ | .help => true
  | .event _ | .quit => false

/-- Whether a line is blank, cannot be read, or only shows something. -/
def isInert (line : String) : Bool :=
  match SessionCommand.ofLine line with
  | .error _ => true
  | .ok none => true
  | .ok (some command) => command.isShown

namespace Session

variable {σ : Type} {o : Output} {d : Device σ} {s : Session σ} {line : String}

theorem onLine_of_isInert (h : isInert line = true) :
    ∃ text, s.onLine o d line = (text, some s) := by
  unfold isInert at h
  unfold onLine
  split at h
  next message hline => exact ⟨_, by rw [hline]⟩
  next hline => exact ⟨_, by rw [hline]⟩
  next command hline =>
    rw [hline]
    cases command with
    | event e => cases h
    | quit => cases h
    | _ => exact ⟨_, rfl⟩

/-- **Deleting lines that do not act deletes what they write**, and nothing else changes. -/
theorem onLines_without {lines : List String} {deleted : Nat → Bool}
    (h : ∀ i line, lines[i]? = some line → deleted i = true → isInert line = true) :
    onLines o d s (without deleted lines) =
      (without deleted (onLines o d s lines).1, (onLines o d s lines).2) := by
  induction lines generalizing s deleted with
  | nil => rfl
  | cons line rest ih =>
    have hrest : ∀ i line, rest[i]? = some line → deleted (i + 1) = true → isInert line = true :=
      fun i line hline => h (i + 1) line hline
    rw [without, onLines]
    by_cases hdeleted : deleted 0 = true
    · obtain ⟨text, htext⟩ := onLine_of_isInert (s := s) (o := o) (d := d) (h 0 line rfl hdeleted)
      rw [if_pos hdeleted, htext, ih hrest]
      simp only [without, hdeleted, if_true]
    · rw [if_neg hdeleted, onLines]
      cases hline : s.onLine o d line with
      | mk text next =>
        cases next with
        | none =>
          dsimp only
          rw [without, if_neg hdeleted, without]
        | some next =>
          have hnext := ih (s := next) hrest
          dsimp only
          rw [hnext, without, if_neg hdeleted]

/-- **A line that ends the session** is the last one that counts. -/
theorem run_of_quit (h : SessionCommand.ofLine line = .ok (some .quit))
    (before after : List String) : run o d s (before ++ line :: after) = run o d s before := by
  have hlines : ∀ s : Session σ,
      (onLines o d s (before ++ line :: after)).2 = (onLines o d s before).2 ∧
      String.join (onLines o d s (before ++ line :: after)).1 =
        String.join (onLines o d s before).1 := by
    induction before with
    | nil =>
      intro s
      have hline : s.onLine o d line = ("", none) := by rw [onLine, h]
      have hlines : onLines o d s (line :: after) = ([""], s) := by rw [onLines, hline]
      rw [List.nil_append, hlines]
      exact ⟨rfl, rfl⟩
    | cons first rest ih =>
      intro s
      rw [List.cons_append, onLines, onLines]
      cases hfirst : s.onLine o d first with
      | mk text next =>
        cases next with
        | none => exact ⟨rfl, rfl⟩
        | some next =>
          obtain ⟨hfinal, hjoin⟩ := ih next
          refine ⟨hfinal, ?_⟩
          simp only [String.join_cons, hjoin]
  rw [run, run]
  obtain ⟨hfinal, hjoin⟩ := hlines (s.onEvent o d .refresh).2
  simp only [hfinal, hjoin]

/-- A text without lines has one blank line, which writes nothing. -/
theorem run_textOf {lines : List String} (h : ∀ line ∈ lines, '\n' ∉ line.toList) :
    run o d s (linesOf (textOf lines)) = run o d s lines := by
  cases lines with
  | nil => rfl
  | cons line rest => rw [linesOf_textOf h (List.cons_ne_nil _ _)]

/-! ### The main result -/

/-- **Only events act in a session**, from every state and for every text.  When any lines are
deleted that are blank, cannot be read, or only show something, the session ends in the same state,
with the same calls to its device, the same recorded steps and so the same closing script, and each
of the other lines writes what it wrote.  Nothing after a line that ends the session has an effect. -/
theorem only_events_act (o : Output) (d : Device σ) (s : Session σ) (text : String)
    {deleted : Nat → Bool} (h : ∀ i line, (linesOf text)[i]? = some line → deleted i = true →
      isInert line = true) :
    let kept := without deleted (linesOf text)
    let (opening, s₀) := s.onEvent o d .refresh
    let (texts, final) := onLines o d s₀ (linesOf text)
    onLines o d s₀ kept = (without deleted texts, final) ∧
    run o d s (linesOf text) = (opening ++ String.join texts ++ final.closing, final) ∧
    run o d s (linesOf (textOf kept)) =
      (opening ++ String.join (without deleted texts) ++ final.closing, final) ∧
    ∀ before line after, SessionCommand.ofLine line = .ok (some .quit) →
      run o d s (before ++ line :: after) = run o d s before := by
  have hkept : ∀ line ∈ without deleted (linesOf text), '\n' ∉ line.toList :=
    fun line hline => not_mem_of_mem_linesOf (without_subset deleted _ hline)
  have hrun : ∀ lines, run o d s lines =
      ((s.onEvent o d .refresh).1 ++
          String.join (onLines o d (s.onEvent o d .refresh).2 lines).1 ++
          (onLines o d (s.onEvent o d .refresh).2 lines).2.closing,
        (onLines o d (s.onEvent o d .refresh).2 lines).2) :=
    fun _ => rfl
  intro kept
  rw [run_textOf hkept, hrun, hrun]
  generalize s.onEvent o d .refresh = started
  obtain ⟨opening, s₀⟩ := started
  dsimp only
  rw [onLines_without h]
  refine ⟨rfl, rfl, rfl, ?_⟩
  intro before line after hquit
  exact run_of_quit hquit before after

/-- A session without a screen, before its first line. -/
def atStart : Session Unit :=
  ⟨.new {}, .opened ()⟩

/-- Lines that lock, among them one that only shows something and one that cannot be read. -/
def lockText : String :=
  "tree\nlock\nbogus\nquit\nlock"

/-- The places of these two lines. -/
def isSpare (i : Nat) : Bool :=
  i == 0 || i == 2

/-- Two lines of a session that only show something or cannot be read are deleted. -/
theorem only_events_act_lock :
    (∀ i line, (linesOf lockText)[i]? = some line → isSpare i = true → isInert line = true) ∧
    textOf (without isSpare (linesOf lockText)) = "lock\nquit\nlock" ∧
    (run {} .idle atStart (linesOf lockText)).2 =
      (run {} .idle atStart (linesOf "lock\nquit\nlock")).2 ∧
    run {} .idle atStart (linesOf "lock\nquit\nlock") = run {} .idle atStart ["lock"] := by
  have hlines : linesOf lockText = ["tree", "lock", "bogus", "quit", "lock"] := by decide
  have hinert : ∀ i line, (linesOf lockText)[i]? = some line → isSpare i = true →
      isInert line = true := by
    rw [hlines]
    intro i line hline hspare
    have hi : i = 0 ∨ i = 2 := by simpa [isSpare] using hspare
    rcases hi with rfl | rfl
    · obtain rfl := Option.some.inj hline
      decide
    · obtain rfl := Option.some.inj hline
      decide
  have hkept : textOf (without isSpare (linesOf lockText)) = "lock\nquit\nlock" := by
    rw [hlines]
    decide
  have hact := only_events_act {} .idle atStart lockText hinert
  generalize atStart.onEvent {} .idle .refresh = started at hact
  obtain ⟨opening, s₀⟩ := started
  dsimp only at hact
  obtain ⟨-, hall, hrest, hquit⟩ := hact
  rw [hkept] at hrest
  have hrestLines : linesOf "lock\nquit\nlock" = ["lock"] ++ "quit" :: ["lock"] := by decide
  refine ⟨hinert, hkept, by rw [hall, hrest], ?_⟩
  rw [hrestLines]
  exact hquit ["lock"] "quit" ["lock"] rfl

end Session

end ScreenInspector.CommandLine
