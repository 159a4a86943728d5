/-
  ScreenInspector/Proofs/ScriptLines.lean
  =======================================
  **The lines of a script**, and where its literals end.

  A step is meant to be two lines of code, one that finds its element and one that clicks it.
  Backslashes and double quotes are escaped, but line breaks are not: a locator with a line break
  breaks the line, and its literal does not end on the line on which it begins, as both languages
  require.  Line breaks in locators are all that can go wrong: without them a script has exactly
  two lines for each step, and with one it never has (`script_lines`).

  The count comes from the code of one step.  What stands behind the locator makes two lines by
  itself, and text in front of it never takes lines away; a line break in that text adds one
  (`length_codeLines_lt`).
-/
import ScreenInspector.Proofs.ScriptReading

namespace ScreenInspector

/-! ### Lines of code -/

/-- What ends a line, alone or as a carriage return before a line feed. -/
def isLineBreak (c : Char) : Bool :=
  c == '\n' || c == '\r'

/-- The lines of a text, without what ends them. -/
def codeLines : List Char → List (List Char)
  | [] => []
  | c :: rest =>
    if c = '\r' ∧ rest.head? = some '\n' then codeLines rest
    else if isLineBreak c then [] :: codeLines rest
    else (c :: (codeLines rest).headD []) :: (codeLines rest).tail

theorem codeLines_line {line : List Char} (h : ∀ c ∈ line, isLineBreak c = false)
    (rest : List Char) : codeLines (line ++ '\n' :: rest) = line :: codeLines rest := by
  induction line with
  | nil => simp [codeLines, isLineBreak]
  | cons c line ih =>
    obtain ⟨hc, hline⟩ := List.forall_mem_cons.mp h
    have hreturn : c ≠ '\r' := by
      rintro rfl
      cases hc
    rw [List.cons_append, codeLines, if_neg (fun hboth => hreturn hboth.1), hc, ih hline]
    rfl

theorem codeLines_ne_nil (cs : List Char) : codeLines (cs ++ ['\n']) ≠ [] := by
  induction cs with
  | nil => simp [codeLines, isLineBreak]
  | cons c cs ih =>
    rw [List.cons_append, codeLines]
    split
    · exact ih
    · split
      · exact List.cons_ne_nil _ _
      · exact List.cons_ne_nil _ _

/-- A line feed parts the lines before it from those behind it. -/
theorem codeLines_append (cs rest : List Char) :
    codeLines (cs ++ '\n' :: rest) = codeLines (cs ++ ['\n']) ++ codeLines rest := by
  induction cs with
  | nil => simp [codeLines, isLineBreak]
  | cons c cs ih =>
    have hhead : (cs ++ '\n' :: rest).head? = (cs ++ ['\n']).head? := by
      cases cs <;> rfl
    obtain ⟨line, more, hlines⟩ := List.exists_cons_of_ne_nil (codeLines_ne_nil cs)
    rw [List.cons_append, List.cons_append, codeLines, codeLines, hhead, ih, hlines]
    split
    · rfl
    · split
      · rfl
      · rfl

/-- The first line goes up to the first line break. -/
theorem headD_codeLines (cs : List Char) :
    (codeLines cs).headD [] = cs.takeWhile fun c => !isLineBreak c := by
  induction cs with
  | nil => rfl
  | cons c cs ih =>
    rw [codeLines, List.takeWhile_cons]
    split
    next hboth =>
      obtain ⟨rfl, hhead⟩ := hboth
      obtain ⟨more, rfl⟩ := List.head?_eq_some_iff.mp hhead
      rw [ih]
      rfl
    next =>
      cases isLineBreak c with
      | true => rfl
      | false =>
        rw [ih]
        rfl

theorem length_codeLines_le (cs rest : List Char) :
    (codeLines rest).length ≤ (codeLines (cs ++ rest)).length := by
  induction cs with
  | nil => exact Nat.le_refl _
  | cons c cs ih =>
    rw [List.cons_append, codeLines]
    split
    · exact ih
    · split
      · exact Nat.le_succ_of_le ih
      · rw [List.length_cons, List.length_tail]
        omega

/-- A line break adds a line to those of the text behind it. -/
theorem length_codeLines_lt {cs rest : List Char} (hbreak : ∃ c ∈ cs, isLineBreak c = true)
    (hrest : rest.head? ≠ some '\n') :
    (codeLines rest).length < (codeLines (cs ++ rest)).length := by
  induction cs with
  | nil =>
    obtain ⟨c, hc, -⟩ := hbreak
    cases hc
  | cons c cs ih =>
    rw [List.cons_append, codeLines]
    split
    next hboth =>
      -- The line feed of a pair is among the characters in front of the rest.
      apply ih
      cases cs with
      | nil => exact absurd hboth.2 hrest
      | cons d cs =>
        obtain rfl : d = '\n' := Option.some.inj hboth.2
        exact ⟨'\n', List.mem_cons_self, rfl⟩
    next =>
      split
      next => exact Nat.lt_succ_of_le (length_codeLines_le cs rest)
      next hc =>
        obtain ⟨d, hd, hdbreak⟩ := hbreak
        rcases List.mem_cons.mp hd with rfl | hd
        · exact absurd hdbreak hc
        · have hlt := ih ⟨d, hd, hdbreak⟩
          rw [List.length_cons, List.length_tail]
          omega

/-! ### The lines of a step -/

namespace RecordedStep

variable (flavor : ScriptFlavor) (s : RecordedStep)

/-- The locator has no line break. -/
def IsOneLine : Prop :=
  ∀ c ∈ s.locator.toList, isLineBreak c = false

def findingLine : List Char :=
  s.beforeLiteral flavor ++
    '\x22' :: (escapedLiteral s.locator.toList ++ '\x22' :: flavor.texts.closing.toList)

def clickingLine : List Char :=
  s.elementName.toList ++ flavor.texts.clicking.toList

theorem toList_code_lines :
    (s.code flavor).toList =
      s.findingLine flavor ++ '\n' :: (s.clickingLine flavor ++ ['\n']) := by
  simp [toList_code, findingLine, clickingLine, afterLiteral]

theorem isLineBreak_texts (flavor : ScriptFlavor) :
    ∀ text ∈ [flavor.texts.opening, flavor.texts.finding, flavor.texts.closing,
      flavor.texts.clicking], ∀ c ∈ text.toList, isLineBreak c = false := by
  cases flavor with
  | java => simp [ScriptFlavor.texts, isLineBreak]
  | python => simp [ScriptFlavor.texts, isLineBreak]

theorem isLineBreak_elementName {c : Char} (h : c ∈ s.elementName.toList) :
    isLineBreak c = false := by
  have hdigits : (toString s.index).toList = Nat.toDigits 10 s.index := Nat.toList_repr
  rw [elementName, String.toList_append, hdigits, List.mem_append] at h
  rcases h with h | h
  · have hword : ∀ c ∈ "element".toList, isLineBreak c = false := by simp [isLineBreak]
    exact hword c h
  · have hdigit := List.all_eq_true.mp (Number.all_isDigit_toDigits s.index) c h
    rw [isLineBreak, Bool.or_eq_false_iff, beq_eq_false_iff_ne, beq_eq_false_iff_ne]
    constructor
    · rintro rfl
      cases hdigit
    · rintro rfl
      cases hdigit

theorem isLineBreak_beforeLiteral {c : Char} (h : c ∈ s.beforeLiteral flavor) :
    isLineBreak c = false := by
  have htexts := isLineBreak_texts flavor
  rw [beforeLiteral, List.mem_append, List.mem_append] at h
  rcases h with h | h | h
  · exact htexts _ (by simp) c h
  · exact s.isLineBreak_elementName h
  · exact htexts _ (by simp) c h

/-- Line breaks are not escaped, and escaping adds none. -/
theorem isLineBreak_escaped_iff {cs : List Char} :
    (∀ c ∈ escapedLiteral cs, isLineBreak c = false) ↔ ∀ c ∈ cs, isLineBreak c = false := by
  rw [escapedLiteral, List.forall_mem_flatMap]
  refine forall₂_congr fun c _ => ?_
  split
  · simp [isLineBreak]
  · simp

theorem isLineBreak_clickingLine {c : Char} (h : c ∈ s.clickingLine flavor) :
    isLineBreak c = false := by
  rcases List.mem_append.mp h with h | h
  · exact s.isLineBreak_elementName h
  · exact isLineBreak_texts flavor _ (by simp) c h

variable {flavor s}

/-- **A step is two lines if its locator is one.** -/
theorem IsOneLine.codeLines_code (h : s.IsOneLine) :
    codeLines (s.code flavor).toList = [s.findingLine flavor, s.clickingLine flavor] := by
  have hfinding : ∀ c ∈ s.findingLine flavor, isLineBreak c = false := by
    intro c hc
    simp only [findingLine, List.mem_append, List.mem_cons] at hc
    rcases hc with hc | rfl | hc | rfl | hc
    · exact s.isLineBreak_beforeLiteral flavor hc
    · rfl
    · exact isLineBreak_escaped_iff.mpr h c hc
    · rfl
    · exact isLineBreak_texts flavor _ (by simp) c hc
  rw [toList_code_lines, codeLines_line hfinding,
    codeLines_line fun c hc => s.isLineBreak_clickingLine flavor hc]
  rfl

/-- What follows the locator makes two lines. -/
theorem length_codeLines_afterLocator (flavor : ScriptFlavor) (s : RecordedStep) :
    (codeLines ('\x22' :: s.afterLiteral flavor)).length = 2 := by
  have hclosing : ∀ c ∈ '\x22' :: flavor.texts.closing.toList, isLineBreak c = false :=
    List.forall_mem_cons.mpr ⟨rfl, isLineBreak_texts flavor _ (by simp)⟩
  have hafter : '\x22' :: s.afterLiteral flavor = ('\x22' :: flavor.texts.closing.toList) ++
      '\n' :: (s.clickingLine flavor ++ ['\n']) := by
    simp [afterLiteral, clickingLine]
  rw [hafter, codeLines_line hclosing,
    codeLines_line fun c hc => s.isLineBreak_clickingLine flavor hc]
  rfl

theorem toList_code_afterLocator :
    (s.code flavor).toList = (s.beforeLiteral flavor ++ '\x22' :: escapedLiteral s.locator.toList) ++
      '\x22' :: s.afterLiteral flavor := by
  simp [toList_code]

theorem two_le_length_codeLines (flavor : ScriptFlavor) (s : RecordedStep) :
    2 ≤ (codeLines (s.code flavor).toList).length := by
  rw [toList_code_afterLocator, ← length_codeLines_afterLocator flavor s]
  exact length_codeLines_le _ _

/-- **A step is two lines only if its locator is one.** -/
theorem length_codeLines_code_iff :
    (codeLines (s.code flavor).toList).length = 2 ↔ s.IsOneLine := by
  constructor
  · intro hlength
    by_contra hbroken
    have hbreak : ∃ c ∈ s.beforeLiteral flavor ++ '\x22' :: escapedLiteral s.locator.toList,
        isLineBreak c = true := by
      rw [IsOneLine, ← isLineBreak_escaped_iff] at hbroken
      push Not at hbroken
      obtain ⟨c, hc, hcbreak⟩ := hbroken
      refine ⟨c, ?_, Bool.not_eq_false _ ▸ hcbreak⟩
      exact List.mem_append_right _ (List.mem_cons_of_mem _ hc)
    have hlt : (codeLines ('\x22' :: s.afterLiteral flavor)).length < _ :=
      length_codeLines_lt hbreak (by simp)
    rw [← toList_code_afterLocator, hlength, length_codeLines_afterLocator] at hlt
    exact absurd hlt (Nat.lt_irrefl 2)
  · intro h
    rw [h.codeLines_code]
    rfl

/-- The characters of a literal up to a line break are those that escape the characters before it. -/
theorem takeWhile_escapedLiteral {cs : List Char} (hbreak : ∃ c ∈ cs, isLineBreak c = true)
    (rest : List Char) :
    (escapedLiteral cs ++ rest).takeWhile (fun c => !isLineBreak c) =
      escapedLiteral (cs.takeWhile fun c => !isLineBreak c) := by
  induction cs with
  | nil =>
    obtain ⟨c, hc, -⟩ := hbreak
    cases hc
  | cons c cs ih =>
    rw [escapedLiteral_cons, List.append_assoc]
    cases hc : isLineBreak c with
    | true =>
      have hplain : ¬ (c = '\\' ∨ c = '\x22') := by
        rintro (rfl | rfl) <;> cases hc
      rw [if_neg hplain, List.takeWhile_cons, hc]
      simp [hc, escapedLiteral]
    | false =>
      have hlater : ∃ d ∈ cs, isLineBreak d = true := by
        obtain ⟨d, hd, hdbreak⟩ := hbreak
        rcases List.mem_cons.mp hd with rfl | hd
        · rw [hc] at hdbreak
          cases hdbreak
        · exact ⟨d, hd, hdbreak⟩
      have hbackslash : isLineBreak '\\' = false := rfl
      rw [List.takeWhile_cons, hc, Bool.not_false, if_pos rfl, escapedLiteral_cons, ← ih hlater]
      split
      · simp [hc, hbackslash]
      · simp [hc]

/-- **The literal ends on its line iff the locator has no line break**: otherwise the line ends first,
and no double quote in it ends the literal. -/
theorem readFinding_firstLine_iff :
    (∃ after, readFinding flavor ((codeLines (s.code flavor).toList).headD []) =
      some (s.target, after)) ↔ s.IsOneLine := by
  constructor
  · rintro ⟨after, hread⟩
    by_contra hbroken
    have hbreak : ∃ c ∈ s.locator.toList, isLineBreak c = true := by
      rw [IsOneLine] at hbroken
      push Not at hbroken
      obtain ⟨c, hc, hcbreak⟩ := hbroken
      exact ⟨c, hc, Bool.not_eq_false _ ▸ hcbreak⟩
    have hbefore : ∀ c ∈ s.beforeLiteral flavor ++ ['\x22'], (!isLineBreak c) = true := by
      intro c hc
      rcases List.mem_append.mp hc with hc | hc
      · rw [s.isLineBreak_beforeLiteral flavor hc]
        rfl
      · rw [List.mem_singleton.mp hc]
        rfl
    have hcode : (s.code flavor).toList = (s.beforeLiteral flavor ++ ['\x22']) ++
        (escapedLiteral s.locator.toList ++ '\x22' :: s.afterLiteral flavor) := by
      simp [toList_code]
    -- What was read of the literal is the escape of a text, so its end is still to come.
    have hbody := readLiteralBody_escaped (s.locator.toList.takeWhile fun c => !isLineBreak c) []
    rw [List.append_nil] at hbody
    rw [headD_codeLines, hcode, List.takeWhile_append_of_pos hbefore,
      takeWhile_escapedLiteral hbreak, List.append_assoc, List.singleton_append,
      readFinding_beforeLiteral, readLiteral, hbody] at hread
    cases hread
  · intro h
    rw [h.codeLines_code]
    exact ⟨flavor.texts.closing.toList, readFinding_literal _⟩

end RecordedStep

/-! ### The lines of a script -/

section Script

variable (flavor : ScriptFlavor) (steps : List RecordedStep)

/-- Every step begins on a line of its own. -/
theorem codeLines_scriptOf :
    codeLines (scriptOf flavor steps).toList =
      steps.flatMap fun s => codeLines (s.code flavor).toList := by
  rw [toList_scriptOf]
  induction steps with
  | nil => rfl
  | cons s steps ih =>
    have hcode : (s.code flavor).toList =
        (s.findingLine flavor ++ '\n' :: s.clickingLine flavor) ++ ['\n'] := by
      simp [RecordedStep.toList_code_lines]
    rw [List.flatMap_cons, List.flatMap_cons, ← ih, hcode, List.append_assoc,
      List.singleton_append, codeLines_append]

theorem length_codeLines_scriptOf_iff :
    (codeLines (scriptOf flavor steps).toList).length = 2 * steps.length ↔
      ∀ s ∈ steps, (codeLines (s.code flavor).toList).length = 2 := by
  have hleast : ∀ steps : List RecordedStep, 2 * steps.length ≤
      (steps.flatMap fun s => codeLines (s.code flavor).toList).length := by
    intro steps
    induction steps with
    | nil => exact Nat.le_refl 0
    | cons s steps ih =>
      have hstep := s.two_le_length_codeLines flavor
      rw [List.flatMap_cons, List.length_append, List.length_cons]
      omega
  rw [codeLines_scriptOf]
  induction steps with
  | nil => simp
  | cons s steps ih =>
    have hstep := s.two_le_length_codeLines flavor
    have hrest := hleast steps
    rw [List.flatMap_cons, List.length_append, List.length_cons, List.forall_mem_cons]
    constructor
    · intro hlength
      exact ⟨by omega, ih.mp (by omega)⟩
    · rintro ⟨hfirst, hmore⟩
      have hlength := ih.mpr hmore
      omega

/-- **A script has two lines for each step iff no locator has a line break.**  Then they are the
lines that find and that click the elements.  And it is the steps whose locators have a line break
whose literals do not end on the lines on which they begin. -/
theorem script_lines :
    ((codeLines (scriptOf flavor steps).toList).length = 2 * steps.length ↔
      ∀ s ∈ steps, s.IsOneLine) ∧
    ((∀ s ∈ steps, s.IsOneLine) → codeLines (scriptOf flavor steps).toList =
      steps.flatMap fun s => [s.findingLine flavor, s.clickingLine flavor]) ∧
    codeLines (scriptOf flavor steps).toList =
      (steps.flatMap fun s => codeLines (s.code flavor).toList) ∧
    ∀ s ∈ steps, (∃ after, readFinding flavor ((codeLines (s.code flavor).toList).headD []) =
      some ((s.index, s.locator), after)) ↔ s.IsOneLine := by
  refine ⟨?_, ?_, codeLines_scriptOf flavor steps,
    fun s _ => RecordedStep.readFinding_firstLine_iff⟩
  · rw [length_codeLines_scriptOf_iff]
    exact forall₂_congr fun s _ => RecordedStep.length_codeLines_code_iff
  · intro h
    rw [codeLines_scriptOf]
    exact List.flatMap_congr fun s hs => (h s hs).codeLines_code

end Script

/-- A step whose locator asks for a value of two lines. -/
def twoLineStep : RecordedStep :=
  ⟨1, "//Button[@id='a\nb']", .click, ⟨0, 0⟩⟩

/-- **One step can be three lines**, and then its literal does not end on the first. -/
theorem script_twoLineStep :
    (codeLines (scriptOf .java [twoLineStep]).toList).length = 3 ∧
    readFinding .java ((codeLines (scriptOf .java [twoLineStep]).toList).headD []) = none := by
  constructor
  · rfl
  · rfl

end ScreenInspector
