/-
  ScreenInspector/Proofs/ScriptReading.lean
  =========================================
  **A script determines its recording.**

  The code of a step is fixed text around three things: the number of its element, written twice,
  and its locator between double quotes.  So a reader of scripts needs no grammar of the language:
  it goes over the fixed texts, takes digits as a number, and takes the literal up to the first
  double quote without a backslash before it (`readScript`).

  What makes this work is that escapes can be undone: the escape of a character is read as that
  character, whatever follows (`readLiteralBody_escaped`), so the quote at which reading stops is
  the one that the writer put there, even where the locator looks like the code around it.  The rest
  of the text begins where the next step does, and the steps are read by induction on their list
  (`readSteps_codes`).
-/
import ScreenInspector.Proofs.NumberTexts
import ScreenInspector.Recording.Script

namespace ScreenInspector

/-! ### The code of a step -/

/-- The texts in the code of a step that are the same for all steps. -/
structure StepTexts where
  opening : String
  finding : String
  closing : String
  clicking : String

def ScriptFlavor.texts : ScriptFlavor → StepTexts
  | .java => ⟨"WebElement ", " = driver.findElement(By.xpath(", "));", ".click();"⟩
  | .python => ⟨"", " = driver.find_element_by_xpath(", ")", ".click()"⟩

namespace RecordedStep

/-- What a script keeps of a step. -/
def target (s : RecordedStep) : Nat × String :=
  (s.index, s.locator)

def elementName (s : RecordedStep) : String :=
  "element" ++ toString s.index

/-- The line that finds the element, up to its literal. -/
def beforeLiteral (flavor : ScriptFlavor) (s : RecordedStep) : List Char :=
  flavor.texts.opening.toList ++ (s.elementName.toList ++ flavor.texts.finding.toList)

def afterLiteral (flavor : ScriptFlavor) (s : RecordedStep) : List Char :=
  flavor.texts.closing.toList ++ '\n' ::
    (s.elementName.toList ++ (flavor.texts.clicking.toList ++ ['\n']))

theorem toList_codeLiteral (text : String) :
    (codeLiteral text).toList = '\x22' :: (escapedLiteral text.toList ++ ['\x22']) := by
  rw [codeLiteral, String.toList_ofList]

theorem code_eq (flavor : ScriptFlavor) (s : RecordedStep) :
    s.code flavor = flavor.texts.opening ++ s.elementName ++ flavor.texts.finding ++
      codeLiteral s.locator ++ flavor.texts.closing ++ "\n" ++ s.elementName ++
      flavor.texts.clicking ++ "\n" := by
  obtain ⟨index, locator, action, point⟩ := s
  cases action
  cases flavor with
  | java =>
    have hclosing : "));\n" = "));" ++ "\n" := rfl
    have hclicking : ".click();\n" = ".click();" ++ "\n" := rfl
    show "WebElement " ++ _ ++ _ ++ codeLiteral locator ++ "));\n" ++ _ ++ ".click();\n" = _
    rw [hclosing, hclicking]
    simp only [elementName, ScriptFlavor.texts, String.append_assoc]
  | python =>
    have hclosing : ")\n" = ")" ++ "\n" := rfl
    have hclicking : ".click()\n" = ".click()" ++ "\n" := rfl
    show _ ++ _ ++ codeLiteral locator ++ ")\n" ++ _ ++ ".click()\n" = _
    rw [hclosing, hclicking]
    simp only [elementName, ScriptFlavor.texts, String.append_assoc, String.empty_append]

theorem toList_code (flavor : ScriptFlavor) (s : RecordedStep) :
    (s.code flavor).toList = s.beforeLiteral flavor ++
      '\x22' :: (escapedLiteral s.locator.toList ++ '\x22' :: s.afterLiteral flavor) := by
  have hbreak : "\n".toList = ['\n'] := rfl
  rw [code_eq]
  simp only [String.toList_append, toList_codeLiteral, hbreak, beforeLiteral, afterLiteral,
    List.append_assoc, List.cons_append, List.nil_append]

/-- Codes depend on steps through their targets alone. -/
theorem code_congr {s s' : RecordedStep} (flavor : ScriptFlavor) (h : s.target = s'.target) :
    s.code flavor = s'.code flavor := by
  obtain ⟨hindex, hlocator⟩ := Prod.mk.inj h
  rw [code_eq, code_eq, elementName, elementName, hindex, hlocator]

end RecordedStep

theorem toList_scriptOf (flavor : ScriptFlavor) (steps : List RecordedStep) :
    (scriptOf flavor steps).toList = steps.flatMap fun s => (s.code flavor).toList := by
  rw [scriptOf, String.toList_join, List.flatMap_map]

theorem scriptOf_append (flavor : ScriptFlavor) (steps more : List RecordedStep) :
    scriptOf flavor (steps ++ more) = scriptOf flavor steps ++ scriptOf flavor more := by
  rw [scriptOf, List.map_append, String.join_append]
  rfl

theorem scriptOf_congr (flavor : ScriptFlavor) {steps steps' : List RecordedStep}
    (h : steps.map RecordedStep.target = steps'.map RecordedStep.target) :
    scriptOf flavor steps = scriptOf flavor steps' := by
  rw [scriptOf, scriptOf]
  congr 1
  induction steps generalizing steps' with
  | nil =>
    obtain rfl := List.map_eq_nil_iff.mp h.symm
    rfl
  | cons s steps ih =>
    cases steps' with
    | nil => cases h
    | cons s' steps' =>
      obtain ⟨hfirst, hrest⟩ := List.cons.inj h
      rw [List.map_cons, List.map_cons, RecordedStep.code_congr flavor hfirst, ih hrest]

/-! ### Escapes -/

/-- Escaping is two replacements, that of the backslashes before that of the quotes. -/
theorem escapedLiteral_eq_replacements (cs : List Char) :
    escapedLiteral cs =
      (cs.flatMap fun c => if c = '\\' then ['\\', '\\'] else [c]).flatMap fun c =>
        if c = '\x22' then ['\\', '\x22'] else [c] := by
  rw [escapedLiteral, List.flatMap_assoc]
  congr 1
  funext c
  by_cases hbackslash : c = '\\'
  · rw [hbackslash]
    rfl
  · by_cases hquote : c = '\x22'
    · rw [hquote]
      rfl
    · simp [hbackslash, hquote]

theorem escapedLiteral_cons (c : Char) (cs : List Char) :
    escapedLiteral (c :: cs) =
      (if c = '\\' ∨ c = '\x22' then ['\\', c] else [c]) ++ escapedLiteral cs :=
  List.flatMap_cons

/-- The text of a literal behind its opening quote, up to the first double quote without a backslash
before it, and what follows.  A backslash stands only before a backslash or a double quote. -/
def readLiteralBody : List Char → Option (List Char × List Char)
  | [] => none
  | '\x22' :: rest => some ([], rest)
  | '\\' :: c :: rest =>
    if c = '\\' ∨ c = '\x22' then (readLiteralBody rest).map fun (cs, after) => (c :: cs, after)
    else none
  | c :: rest => (readLiteralBody rest).map fun (cs, after) => (c :: cs, after)

/-- **Escapes are undone**, whatever follows them. -/
theorem readLiteralBody_escaped (cs rest : List Char) :
    readLiteralBody (escapedLiteral cs ++ rest) =
      (readLiteralBody rest).map fun (read, after) => (cs ++ read, after) := by
  induction cs with
  | nil => simp [escapedLiteral]
  | cons c cs ih =>
    rw [escapedLiteral_cons, List.append_assoc]
    by_cases hescaped : c = '\\' ∨ c = '\x22'
    · rw [if_pos hescaped, List.cons_append, List.singleton_append, readLiteralBody,
        if_pos hescaped, ih, Option.map_map]
      rfl
    · rw [if_neg hescaped, List.singleton_append]
      obtain ⟨hbackslash, hquote⟩ := not_or.mp hescaped
      rw [readLiteralBody, ih, Option.map_map]
      · rfl
      · exact hquote
      · exact fun _ _ heq => absurd heq hbackslash

/-! ### Reading scripts -/

/-- The number at the beginning of a text, and what follows its digits. -/
def readNumber (cs : List Char) : Option (Nat × List Char) :=
  let digits := cs.takeWhile Char.isDigit
  if digits.isEmpty then none else some (Number.ofDigitChars digits, cs.dropWhile Char.isDigit)

/-- The number of the element whose name stands at the beginning. -/
def readName (cs : List Char) : Option (Nat × List Char) := do
  let cs ← "element".toList.isPrefixOf? cs
  readNumber cs

def readLiteral : List Char → Option (List Char × List Char)
  | '\x22' :: cs => readLiteralBody cs
  | _ => none

/-- The number and the locator in a line that finds an element, and what follows the literal. -/
def readFinding (flavor : ScriptFlavor) (cs : List Char) :
    Option ((Nat × String) × List Char) := do
  let cs ← flavor.texts.opening.toList.isPrefixOf? cs
  let (index, cs) ← readName cs
  let cs ← flavor.texts.finding.toList.isPrefixOf? cs
  let (locator, cs) ← readLiteral cs
  pure ((index, String.ofList locator), cs)

/-- A step whose code stands at the beginning, and what follows it.  The element that is clicked is
the one that was found. -/
def readStep (flavor : ScriptFlavor) (cs : List Char) : Option ((Nat × String) × List Char) := do
  let (found, cs) ← readFinding flavor cs
  let cs ← (flavor.texts.closing.toList ++ ['\n']).isPrefixOf? cs
  let (clicked, cs) ← readName cs
  let cs ← (flavor.texts.clicking.toList ++ ['\n']).isPrefixOf? cs
  if clicked = found.1 then pure (found, cs) else none

/-- Steps up to the end of a text, at most so many. -/
def readSteps (flavor : ScriptFlavor) : Nat → List Char → Option (List (Nat × String))
  | _, [] => some []
  | 0, _ :: _ => none
  | fuel + 1, c :: rest => do
    let (step, rest) ← readStep flavor (c :: rest)
    let more ← readSteps flavor fuel rest
    pure (step :: more)

/-- The steps of a script: their numbers and locators. -/
def readScript (flavor : ScriptFlavor) (script : String) : Option (List (Nat × String)) :=
  readSteps flavor script.toList.length script.toList

/-! ### Written steps are read -/

theorem isPrefixOf?_append (text rest : List Char) : text.isPrefixOf? (text ++ rest) = some rest :=
  List.isPrefixOf?_eq_some_iff_append_eq.mpr rfl

theorem readNumber_toDigits (n : Nat) {rest : List Char}
    (hrest : ∀ c more, rest = c :: more → c.isDigit = false) :
    readNumber (Nat.toDigits 10 n ++ rest) = some (n, rest) := by
  have hdigits := List.all_eq_true.mp (Number.all_isDigit_toDigits n)
  obtain ⟨htake, hdrop⟩ := Json.takeWhile_isDigit_append rest hdigits hrest
  have hsome : (Nat.toDigits 10 n).isEmpty = false :=
    List.isEmpty_eq_false_iff.mpr Nat.toDigits_ne_nil
  rw [readNumber, htake, hdrop, hsome, Number.ofDigitChars_toDigits]
  rfl

variable {flavor : ScriptFlavor} {s : RecordedStep}

theorem readName_elementName {rest : List Char}
    (hrest : ∀ c more, rest = c :: more → c.isDigit = false) :
    readName (s.elementName.toList ++ rest) = some (s.index, rest) := by
  have hdigits : (toString s.index).toList = Nat.toDigits 10 s.index := Nat.toList_repr
  rw [readName, RecordedStep.elementName, String.toList_append, hdigits, List.append_assoc,
    isPrefixOf?_append, Option.bind_eq_bind, Option.bind_some, readNumber_toDigits s.index hrest]

/-- No digit follows the name of an element. -/
theorem ScriptFlavor.isDigit_finding (flavor : ScriptFlavor) (rest : List Char) :
    ∀ c more, flavor.texts.finding.toList ++ rest = c :: more → c.isDigit = false := by
  intro c more h
  cases flavor <;> cases h <;> rfl

theorem ScriptFlavor.isDigit_clicking (flavor : ScriptFlavor) (rest : List Char) :
    ∀ c more, flavor.texts.clicking.toList ++ rest = c :: more → c.isDigit = false := by
  intro c more h
  cases flavor <;> cases h <;> rfl

/-- The line up to the literal leaves the literal to be read. -/
theorem readFinding_beforeLiteral (rest : List Char) :
    readFinding flavor (s.beforeLiteral flavor ++ rest) =
      (readLiteral rest).map fun (locator, after) => ((s.index, String.ofList locator), after) := by
  have hname := readName_elementName (s := s) (flavor.isDigit_finding rest)
  rw [readFinding, RecordedStep.beforeLiteral, List.append_assoc, List.append_assoc,
    isPrefixOf?_append]
  simp only [Option.bind_eq_bind, Option.bind_some, hname, isPrefixOf?_append]
  cases readLiteral rest with
  | none => rfl
  | some read => rfl

theorem readFinding_literal (rest : List Char) :
    readFinding flavor (s.beforeLiteral flavor ++
      '\x22' :: (escapedLiteral s.locator.toList ++ '\x22' :: rest)) = some (s.target, rest) := by
  rw [readFinding_beforeLiteral, readLiteral, readLiteralBody_escaped, readLiteralBody]
  simp [RecordedStep.target]

/-- **The code of a step is read as the step**, and nothing of what follows it is touched. -/
theorem readStep_code (flavor : ScriptFlavor) (s : RecordedStep) (rest : List Char) :
    readStep flavor ((s.code flavor).toList ++ rest) = some (s.target, rest) := by
  have hname := readName_elementName (s := s) (flavor.isDigit_clicking ('\n' :: rest))
  have hafter : s.afterLiteral flavor ++ rest = (flavor.texts.closing.toList ++ ['\n']) ++
      (s.elementName.toList ++ (flavor.texts.clicking.toList ++ '\n' :: rest)) := by
    simp [RecordedStep.afterLiteral]
  have hend : flavor.texts.clicking.toList ++ '\n' :: rest =
      (flavor.texts.clicking.toList ++ ['\n']) ++ rest := by simp
  -- The line that finds the element is read with its literal; what is left is the other line.
  rw [RecordedStep.toList_code, List.append_assoc, List.cons_append, List.append_assoc,
    List.cons_append, hafter, readStep, readFinding_literal]
  simp only [Option.bind_eq_bind, Option.bind_some, isPrefixOf?_append, hname]
  rw [hend, isPrefixOf?_append]
  simp [RecordedStep.target]

theorem code_ne_nil (flavor : ScriptFlavor) (s : RecordedStep) : (s.code flavor).toList ≠ [] := by
  rw [RecordedStep.toList_code]
  simp

theorem readSteps_codes {fuel : Nat} {steps : List RecordedStep} (h : steps.length ≤ fuel) :
    readSteps flavor fuel (steps.flatMap fun s => (s.code flavor).toList) =
      some (steps.map RecordedStep.target) := by
  induction steps generalizing fuel with
  | nil => simp [readSteps]
  | cons s steps ih =>
    cases fuel with
    | zero => cases h
    | succ fuel =>
      have hstep := readStep_code flavor s (steps.flatMap fun s => (s.code flavor).toList)
      rw [List.flatMap_cons, List.map_cons]
      generalize hcode : (s.code flavor).toList = code at hstep ⊢
      cases code with
      | nil => exact absurd hcode (code_ne_nil flavor s)
      | cons c code =>
        rw [List.cons_append] at hstep ⊢
        rw [readSteps, hstep]
        simp only [Option.bind_eq_bind, Option.bind_some, ih (Nat.le_of_succ_le_succ h)]
        rfl

theorem readScript_scriptOf (flavor : ScriptFlavor) (steps : List RecordedStep) :
    readScript flavor (scriptOf flavor steps) = some (steps.map RecordedStep.target) := by
  rw [readScript, toList_scriptOf]
  apply readSteps_codes
  induction steps with
  | nil => exact Nat.zero_le _
  | cons s steps ih =>
    have hcode := List.length_pos_iff.mpr (code_ne_nil flavor s)
    rw [List.flatMap_cons, List.length_append, List.length_cons]
    omega

/-- **A script determines the recording**: reading it gives the numbers and the locators of all
steps, in their order, whatever characters the locators hold.  So recordings have the same script
only if they agree in these, and they do have it then.  The script of one recording after another is
the one script after the other. -/
theorem script_determines_targets (flavor : ScriptFlavor) :
    (∀ steps, readScript flavor (scriptOf flavor steps) =
      some (steps.map fun s => (s.index, s.locator))) ∧
    (∀ steps steps', scriptOf flavor steps = scriptOf flavor steps' ↔
      (steps.map fun s => (s.index, s.locator)) = steps'.map fun s => (s.index, s.locator)) ∧
    ∀ steps more, scriptOf flavor (steps ++ more) =
      scriptOf flavor steps ++ scriptOf flavor more := by
  have hread := readScript_scriptOf flavor
  refine ⟨hread, ?_, scriptOf_append flavor⟩
  intro steps steps'
  constructor
  · intro hscript
    have hsteps := hread steps
    rw [hscript, hread steps'] at hsteps
    exact (Option.some.inj hsteps).symm
  · exact scriptOf_congr flavor

-- A locator may look like the end of its own line.
example : readScript .python (scriptOf .python [⟨3, "\x22)\n\\", .click, ⟨0, 0⟩⟩]) =
    some [(3, "\x22)\n\\")] := by
  rfl

end ScreenInspector
