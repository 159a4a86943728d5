/-
  ScreenInspector/Yaml/ScalarText.lean
  ====================================
  **The texts of scalars**: plain, between quotes, and in blocks.

  In plain and quoted scalars a gap of several lines counts as one blank, or as the line ends after
  its first one.  A block keeps its lines as they are, or folds them in the same way.
-/
import ScreenInspector.Yaml.Cursor

namespace ScreenInspector.Yaml

/-! ### Gaps -/

/-- The text for the line ends of a gap: a first line feed alone is a blank, and counts nothing
before others. -/
def foldedBreaks : List Char → List Char
  | [] => []
  | ['\n'] => [' ']
  | '\n' :: rest => rest
  | breaks => breaks

/-- The text for a gap. -/
def gapText (gap : List Char) : List Char :=
  if gap.any isBreak then foldedBreaks (gap.filter isBreak) else gap

/-- Whether a tab stands in a gap after a line end, before a column. -/
def hasEarlyTab (column : Int) : Cursor → Bool → List Char → Bool
  | _, _, [] => false
  | c, onNewLine, ch :: rest =>
    (onNewLine && ch == '\t' && decide ((c.column : Int) < column)) ||
      hasEarlyTab column c.next (onNewLine || isBreak ch) rest

/-! ### Plain scalars -/

/-- The brackets and commas of flow collections. -/
def isFlowMark (c : Char) : Bool :=
  c == ',' || c == '[' || c == ']' || c == '\x7b' || c == '\x7d'

/-- The characters of a plain scalar up to a gap or a mark that ends it, and those after them. -/
def plainWord (inFlow : Bool) : List Char → Except Fault (List Char × List Char)
  | [] => .ok ([], [])
  | c :: rest =>
    if isGap c || (c == ':' && beginsWithGap rest) || (inFlow && isFlowMark c) then
      .ok ([], c :: rest)
    else if inFlow && c == ':' && rest.head?.any fun d => isFlowMark d || d == '?' then
      .error (.unexpectedChar c)
    else do
      let (word, after) ← plainWord inFlow rest
      pure (c :: word, after)

/-- The words of a plain scalar whose lines must be indented by `indent`, and whether the scan
ended on a later line than its last word; `fuel` is the number of characters left. -/
def plainFrom (inFlow : Bool) (indent : Int) :
    Nat → Cursor → Except Fault ((List Char × Bool) × Cursor)
  | 0, c => .ok (([], false), c)
  | fuel + 1, c =>
    if c.isAtDocumentMark || c.isAt '#' then .ok (([], false), c)
    else do
      let (word, after) ← plainWord inFlow c.rest
      let ended := c.pass word
      let gap := after.takeWhile isGap
      if word.isEmpty || gap.isEmpty then pure ((word, false), ended)
      else if hasEarlyTab indent ended false gap then .error .tabIndentation
      else
        let onward := ended.pass gap
        if !inFlow && decide ((onward.column : Int) < indent) then
          pure ((word, gap.any isBreak), onward)
        else
          let ((more, onNewLine), last) ← plainFrom inFlow indent fuel onward
          if more.isEmpty then pure ((word, gap.any isBreak), last)
          else pure ((word ++ gapText gap ++ more, onNewLine), last)

/-- A plain scalar. -/
def scanPlain (inFlow : Bool) (indent : Int) (c : Cursor) :
    Except Fault ((List Char × Bool) × Cursor) :=
  plainFrom inFlow indent (c.rest.length + 1) c

/-! ### Quoted scalars -/

/-- What an escape of one letter stands for. -/
def letterEscape? (c : Char) : Option Char :=
  match c with
  | '0' => some '\x00'
  | 'a' => some '\x07'
  | 'b' => some '\x08'
  | 't' => some '\t'
  | '\t' => some '\t'
  | 'n' => some '\n'
  | 'v' => some '\x0b'
  | 'f' => some '\x0c'
  | 'r' => some '\r'
  | 'e' => some '\x1b'
  | ' ' => some ' '
  | '\x22' => some '\x22'
  | '/' => some '/'
  | '\\' => some '\\'
  | 'N' => some '\u0085'
  | '_' => some '\u00a0'
  | 'L' => some '\u2028'
  | 'P' => some '\u2029'
  | _ => none

/-- How many digits an escape of a code point has. -/
def codeEscapeLength? (c : Char) : Option Nat :=
  match c with
  | 'x' => some 2
  | 'u' => some 4
  | 'U' => some 8
  | _ => none

/-- The value of a digit of base sixteen. -/
def hexDigitValue? (c : Char) : Option Nat :=
  if c.isDigit then some (c.toNat - '0'.toNat)
  else if decide ('a' ≤ c) && decide (c ≤ 'f') then some (c.toNat - 'a'.toNat + 10)
  else if decide ('A' ≤ c) && decide (c ≤ 'F') then some (c.toNat - 'A'.toNat + 10)
  else none

/-- The number that digits of base sixteen write. -/
def hexNumber? (digits : List Char) : Option Nat :=
  digits.foldl (fun n c => do pure ((← n) * 16 + (← hexDigitValue? c))) (some 0)

/-- The character of a code point that is no surrogate. -/
def charOfCode? (n : Nat) : Option Char :=
  if n < 0xD800 ∨ (0xDFFF < n ∧ n < 0x110000) then some (Char.ofNat n) else none

/-- An escape after its backslash: the character, and the characters that write it. -/
def escape? : List Char → Option (Char × List Char)
  | [] => none
  | c :: rest =>
    match letterEscape? c with
    | some ch => some (ch, [c])
    | none => do
      let length ← codeEscapeLength? c
      let digits := rest.take length
      if digits.length = length then
        let n ← hexNumber? digits
        let ch ← charOfCode? n
        pure (ch, c :: digits)
      else none

/-- A quoted scalar after its first quote, up to its last; `fuel` is the number of characters
left. -/
def quotedFrom (isSingle : Bool) : Nat → Cursor → Except Fault (List Char × Cursor)
  | 0, _ => .error .endOfText
  | fuel + 1, c =>
    if c.isAtDocumentMark then .error .documentMarkInScalar
    else
      match c.rest with
      | [] => .error .endOfText
      | ch :: rest =>
        if isGap ch then do
          let gap := c.rest.takeWhile isGap
          let (more, last) ← quotedFrom isSingle fuel (c.pass gap)
          pure (gapText gap ++ more, last)
        else if isSingle then
          if ch = '\x27' then
            if rest.head? = some '\x27' then do
              let (more, last) ← quotedFrom isSingle fuel c.next.next
              pure ('\x27' :: more, last)
            else .ok ([], c.next)
          else do
            let (more, last) ← quotedFrom isSingle fuel c.next
            pure (ch :: more, last)
        else if ch = '\x22' then .ok ([], c.next)
        else if ch = '\\' then
          if rest.head?.any isBreak then do
            let gap := (rest.drop 1).takeWhile isGap
            let (more, last) ← quotedFrom isSingle fuel (c.next.next.pass gap)
            pure (gap.filter isBreak ++ more, last)
          else
            match escape? rest with
            | none => .error .badEscape
            | some (escaped, written) => do
              let (more, last) ← quotedFrom isSingle fuel (c.next.pass written)
              pure (escaped :: more, last)
        else do
          let (more, last) ← quotedFrom isSingle fuel c.next
          pure (ch :: more, last)

/-- A quoted scalar. -/
def scanQuoted (isSingle : Bool) (c : Cursor) : Except Fault (List Char × Cursor) :=
  quotedFrom isSingle (c.rest.length + 1) c.next

/-! ### Block scalars -/

/-- What becomes of the line ends after the last line of a block. -/
inductive Chomping where
  | strip
  | clip
  | keep
deriving DecidableEq, Repr, Inhabited

def chompingOf? (c : Char) : Option Chomping :=
  match c with
  | '-' => some .strip
  | '+' => some .keep
  | _ => none

/-- A digit that tells the indentation of a block. -/
def indentationOf? (c : Char) : Option Nat :=
  if c.isDigit then some (c.toNat - '0'.toNat) else none

/-- The signs after the mark of a block: chomping and indentation in either order. -/
def blockSigns : List Char → Chomping × Option Nat × List Char
  | a :: rest =>
    match chompingOf? a, indentationOf? a with
    | some chomping, _ =>
      match rest with
      | b :: _ =>
        match indentationOf? b with
        | some n => (chomping, some n, [a, b])
        | none => (chomping, none, [a])
      | [] => (chomping, none, [a])
    | none, some n =>
      match rest.head?.bind chompingOf? with
      | some chomping => (chomping, some n, a :: rest.take 1)
      | none => (.clip, some n, [a])
    | none, none => (.clip, none, [])
  | [] => (.clip, none, [])

/-- The empty lines before content that is indented by `indent`, or by as much as they show; their
line ends and the greatest column seen. -/
def blockBreaks (indent : Option Nat) :
    Nat → Nat → Cursor → Except Fault ((List Char × Nat) × Cursor)
  | 0, most, c => .ok (([], most), c)
  | fuel + 1, most, c =>
    let blanks := c.rest.takeWhile (· == ' ')
    let c := c.pass (match indent with
      | some n => blanks.take (n - c.column)
      | none => blanks)
    let most := max most c.column
    let isOutside := match indent with
      | some n => decide (c.column < n)
      | none => true
    if isOutside && c.isAt '\t' then .error .tabIndentation
    else
      match c.peek? with
      | some ch =>
        if isBreak ch then do
          let ((breaks, most), last) ← blockBreaks indent fuel most c.next
          pure ((ch :: breaks, most), last)
        else .ok (([], most), c)
      | none => .ok (([], most), c)

/-- The lines of a block.  `isLiteral` keeps line ends; otherwise a line feed between two lines
that both begin without a blank is folded.  `leading` is the end of the line before, if there is
one, and `breaks` are those of the empty lines since. -/
def blockLines (isLiteral : Bool) (chomping : Chomping) (indent : Nat) :
    Nat → (leading breaks : List Char) → (afterBlank : Bool) → Cursor →
      Except Fault (List Char × Cursor)
  | 0, _, _, _, c => .ok ([], c)
  | fuel + 1, leading, breaks, afterBlank, c =>
    if c.column = indent && !c.rest.isEmpty then do
      let beginsBlank := c.rest.head?.any isBlank
      let isFolded := !isLiteral && leading == ['\n'] && !afterBlank && !beginsBlank
      let joint :=
        if isFolded then (if breaks.isEmpty then [' '] else breaks) else leading ++ breaks
      let content := c.rest.takeWhile fun ch => !isBreak ch
      let ended := c.pass content
      let leading := ended.rest.take 1
      let ((breaks, _), onward) ←
        blockBreaks (some indent) (c.rest.length + 1) 0 (ended.pass leading)
      let (more, last) ← blockLines isLiteral chomping indent fuel leading breaks beginsBlank onward
      pure (joint ++ content ++ more, last)
    else
      let tail := match chomping with
        | .strip => []
        | .clip => leading
        | .keep => leading ++ breaks
      .ok (tail, c)

/-- A block scalar, which stands in a block that is indented by `outer`. -/
def scanBlock (isLiteral : Bool) (outer : Int) (c : Cursor) :
    Except Fault (List Char × Cursor) := do
  let (chomping, indentation, signs) := blockSigns c.next.rest
  if indentation = some 0 then .error .badBlockHeader
  else
    let c := (c.next.pass signs).skip isBlank
    let c := if c.isAt '#' then c.skip fun ch => !isBreak ch else c
    if !c.rest.isEmpty && !c.rest.head?.any isBreak then .error .badBlockHeader
    else
      let c := c.next
      let known := indentation.map fun n => if 0 ≤ outer then outer.toNat + n else n
      let ((breaks, most), c) ← blockBreaks known (c.rest.length + 1) 0 c
      let indent := known.getD (max most (max (outer + 1).toNat 1))
      blockLines isLiteral chomping indent (c.rest.length + 1) [] breaks false c

end ScreenInspector.Yaml
