/-
  ScreenInspector/Yaml/Token.lean
  ===============================
  **Tokens of YAML**, with brackets for the structure that indentation means.

  A key of a mapping is known only by the colon after it.  So wherever a key may begin, its place
  among the tokens is kept, one for each level of brackets, and a colon on the same line puts the
  tokens for a key there, and those for a block before them if the key opens one.

  A block is open for each column of indentation; a token further left closes blocks.
-/
import ScreenInspector.Yaml.ScalarText

namespace ScreenInspector.Yaml

/-- How a scalar is written. -/
inductive ScalarStyle where
  | plain
  | singleQuoted
  | doubleQuoted
  | literal
  | folded
deriving DecidableEq, Repr, Inhabited

/-- A tag: a handle, which stands for a beginning, and the rest. -/
structure RawTag where
  handle : List Char
  suffix : List Char
deriving DecidableEq, Repr, Inhabited

inductive Token where
  | version (major minor : Nat)
  | tagHandle (handle stem : List Char)
  | documentStart
  | documentEnd
  | sequenceStart
  | mappingStart
  | blockEnd
  | flowSequenceStart
  | flowSequenceEnd
  | flowMappingStart
  | flowMappingEnd
  | blockEntry
  | flowEntry
  | key
  | value
  | alias (name : String)
  | anchor (name : String)
  | tag (tag : RawTag)
  | scalar (text : String) (style : ScalarStyle)
deriving DecidableEq, Repr, Inhabited

/-- A place where a key may begin. -/
structure PendingKey where
  /-- The number of tokens before it. -/
  tokenCount : Nat
  index : Nat
  line : Nat
  column : Nat
  /-- Whether nothing but a key can stand there. -/
  isRequired : Bool
deriving Repr, Inhabited

structure Scanner where
  cursor : Cursor
  /-- The tokens so far, the last first. -/
  tokens : List Token := []
  /-- The column of the innermost block, -1 outside all blocks. -/
  indent : Int := -1
  outerIndents : List Int := []
  /-- The pending key inside the innermost brackets. -/
  pending : Option PendingKey := none
  /-- The pending keys around each pair of open brackets, the innermost first. -/
  outerPending : List (Option PendingKey) := []
  /-- Whether a key may begin here. -/
  allowsKey : Bool := true
deriving Inhabited

namespace Scanner

variable (s : Scanner)

def inFlow : Bool :=
  !s.outerPending.isEmpty

def push (token : Token) : Scanner :=
  { s with tokens := token :: s.tokens }

/-- Puts tokens behind the first `count` ones. -/
def insertAt (count : Nat) (tokens : List Token) : Scanner :=
  let later := s.tokens.length - count
  { s with tokens := s.tokens.take later ++ tokens.reverse ++ s.tokens.drop later }

/-- Goes `n` characters further. -/
def step (n : Nat) : Scanner :=
  { s with cursor := s.cursor.pass (s.cursor.rest.take n) }

/-! ### Blocks -/

/-- Closes the blocks that are indented by more than a column. -/
def closeBlocks (column : Int) : Scanner :=
  if s.inFlow then s
  else
    let closed := (s.indent :: s.outerIndents).takeWhile fun i => decide (column < i)
    match (s.indent :: s.outerIndents).drop closed.length with
    | indent :: outer =>
      { s with indent := indent, outerIndents := outer,
               tokens := closed.map (fun _ => Token.blockEnd) ++ s.tokens }
    | [] => s

/-- Whether a token at a column opens a block. -/
def opensBlock (column : Nat) : Bool :=
  !s.inFlow && decide (s.indent < (column : Int))

/-- The columns of blocks after one was opened at a column. -/
def indented (column : Nat) : Scanner :=
  { s with indent := column, outerIndents := s.indent :: s.outerIndents }

/-- Opens a block at the cursor, if its column does so. -/
def openBlock (token : Token) : Scanner :=
  if s.opensBlock s.cursor.column then (s.indented s.cursor.column).push token else s

/-! ### Keys -/

/-- Gives the pending key up; a required one must not be given up. -/
def dropPending : Except Fault Scanner :=
  match s.pending with
  | some k => if k.isRequired then .error .misplacedKey else .ok { s with pending := none }
  | none => .ok s

/-- Keeps the place of the next token, if a key may begin there. -/
def markPending : Except Fault Scanner :=
  if s.allowsKey then do
    let s ← s.dropPending
    let c := s.cursor
    pure { s with
      pending := some ⟨s.tokens.length, c.index, c.line, c.column,
        !s.inFlow && s.indent == (c.column : Int)⟩ }
  else .ok s

/-- How many bytes a key may have at most before its colon. -/
def keyLimit : Nat := 1024

/-- The pending key, if a colon at the cursor ends it. -/
def endingKey? : Except Fault (Option PendingKey) :=
  match s.pending with
  | none => .ok none
  | some k =>
    if k.line < s.cursor.line ∨ k.index + keyLimit < s.cursor.index then
      if k.isRequired then .error .misplacedKey else .ok none
    else .ok (some k)

/-! ### Directives, anchors and tags -/

/-- A number of a version. -/
def versionNumber (c : Cursor) : Except Fault (Nat × Cursor) :=
  let digits := c.rest.takeWhile Char.isDigit
  if digits.isEmpty ∨ 9 < digits.length then .error .badDirective
  else .ok (digits.foldl (fun n d => n * 10 + (d.toNat - '0'.toNat)) 0, c.pass digits)

/-- A character that a tag may hold; some only in tags between angle brackets. -/
def isTagChar (isFree : Bool) (c : Char) : Bool :=
  isWordChar c || ";/?:@&=+$.!~*\x27()%".toList.contains c || (isFree && ",[]".toList.contains c)

/-- How many bytes the UTF-8 form of a character has, and how much of the first one counts. -/
def leadingByte? (n : Nat) : Option (Nat × Nat) :=
  if n < 0x80 then some (1, n)
  else if n < 0xC0 then none
  else if n < 0xE0 then some (2, n - 0xC0)
  else if n < 0xF0 then some (3, n - 0xE0)
  else if n < 0xF8 then some (4, n - 0xF0)
  else none

/-- The characters that a text with escapes stands for.  An escape is a byte in base sixteen, and
the bytes are UTF-8; `due` bytes are missing of a character of which `code` is known. -/
def unescaped : (due code : Nat) → List Char → Option (List Char)
  | 0, _, [] => some []
  | _ + 1, _, [] => none
  | due, code, '%' :: a :: b :: rest => do
    let n := (← hexDigitValue? a) * 16 + (← hexDigitValue? b)
    let (due, code) ←
      match due with
      | 0 => leadingByte? n
      | due + 1 => if n / 64 = 2 then some (due + 1, code * 64 + n % 64) else none
    if due = 1 then pure (Char.ofNat code :: (← unescaped 0 0 rest))
    else unescaped (due - 1) code rest
  | _, _, '%' :: _ => none
  | 0, _, c :: rest => do
    pure (c :: (← unescaped 0 0 rest))
  | _ + 1, _, _ => none

/-- The characters of a tag. -/
def tagChars (isFree : Bool) (c : Cursor) : Except Fault (List Char × Cursor) :=
  let written := c.rest.takeWhile (isTagChar isFree)
  match unescaped 0 0 written with
  | some cs => .ok (cs, c.pass written)
  | none => .error .badTag

/-- A handle: an exclamation mark, and possibly a word and another one. -/
def handle (isDirective : Bool) (c : Cursor) : Except Fault (List Char × Cursor) :=
  if !c.isAt '!' then .error .badTag
  else
    let word := c.next.rest.takeWhile isWordChar
    let ended := c.next.pass word
    if ended.isAt '!' then .ok ('!' :: (word ++ ['!']), ended.next)
    else if isDirective && !word.isEmpty then .error .badTag
    else .ok ('!' :: word, ended)

/-- A directive up to the end of its line. -/
def directive : Except Fault Scanner := do
  let c := s.cursor.next
  let name := c.rest.takeWhile isWordChar
  let c := c.pass name
  if name.isEmpty || !beginsWithGap c.rest then .error .badDirective
  else
    let c := c.skip isBlank
    let (token, c) ←
      if name = "YAML".toList then do
        let (major, c) ← versionNumber c
        if !c.isAt '.' then .error .badDirective
        else
          let (minor, c) ← versionNumber c.next
          pure (Token.version major minor, c)
      else if name = "TAG".toList then do
        let (handle, c) ← handle true c
        if !c.rest.head?.any isBlank then .error .badDirective
        else
          let (stem, c) ← tagChars true (c.skip isBlank)
          if stem.isEmpty || !beginsWithGap c.rest then .error .badDirective
          else pure (Token.tagHandle handle stem, c)
      else .error .badDirective
    let c := c.skip isBlank
    let c := if c.isAt '#' then c.skip fun ch => !isBreak ch else c
    match c.rest with
    | [] => pure { s.push token with cursor := c }
    | ch :: _ =>
      if isBreak ch then pure { s.push token with cursor := c.next } else .error .badDirective

/-- The name of an anchor or an alias after its mark. -/
def anchorName (c : Cursor) : Except Fault (String × Cursor) :=
  let name := c.next.rest.takeWhile isWordChar
  let ended := c.next.pass name
  if name.isEmpty ||
      !(beginsWithGap ended.rest ||
        ended.rest.head?.any fun ch => "?:,]\x7d%@\x60".toList.contains ch)
  then .error .badAnchor
  else .ok (String.ofList name, ended)

/-- A tag between angle brackets, with a handle, or with an exclamation mark alone. -/
def rawTag (c : Cursor) : Except Fault (RawTag × Cursor) := do
  if c.next.isAt '<' then
    let (suffix, c) ← tagChars true c.next.next
    if suffix.isEmpty || !c.isAt '>' then .error .badTag else pure (⟨[], suffix⟩, c.next)
  else
    let (first, ended) ← handle false c
    if 1 < first.length && first.getLast? == some '!' then
      let (suffix, c) ← tagChars false ended
      if suffix.isEmpty then .error .badTag else pure (⟨first, suffix⟩, c)
    else
      let (more, c) ← tagChars false ended
      let suffix := first.drop 1 ++ more
      pure (if suffix.isEmpty then ⟨[], ['!']⟩ else ⟨['!'], suffix⟩, c)

/-- A tag, which a gap must follow, or a comma inside brackets. -/
def scanTag : Except Fault Scanner := do
  let (tag, c) ← rawTag s.cursor
  if beginsWithGap c.rest || (s.inFlow && c.isAt ',') then
    pure { s.push (.tag tag) with cursor := c }
  else .error .badTag

/-! ### Single tokens -/

/-- A token that closes all blocks and cannot belong to a key. -/
def outsideBlocks : Except Fault Scanner := do
  let s ← (s.closeBlocks (-1)).dropPending
  pure { s with allowsKey := false }

def documentMark (token : Token) : Except Fault Scanner := do
  let s ← s.outsideBlocks
  pure ((s.push token).step 3)

def openBrackets (token : Token) : Except Fault Scanner := do
  let s ← s.markPending
  pure ({ s with outerPending := s.pending :: s.outerPending, pending := none,
                 allowsKey := true }.push token |>.step 1)

def closeBrackets (token : Token) : Except Fault Scanner := do
  let s ← s.dropPending
  let s := match s.outerPending with
    | pending :: outer => { s with pending := pending, outerPending := outer }
    | [] => s
  pure ({ s with allowsKey := false }.push token |>.step 1)

def comma : Except Fault Scanner := do
  let s ← s.dropPending
  pure ({ s with allowsKey := true }.push .flowEntry |>.step 1)

def hyphen : Except Fault Scanner := do
  let s ←
    if s.inFlow then pure s
    else if s.allowsKey then pure (s.openBlock .sequenceStart)
    else .error .misplacedEntry
  let s ← s.dropPending
  pure ({ s with allowsKey := true }.push .blockEntry |>.step 1)

def questionMark : Except Fault Scanner := do
  let s ←
    if s.inFlow then pure s
    else if s.allowsKey then pure (s.openBlock .mappingStart)
    else .error .misplacedKey
  let s ← s.dropPending
  pure ({ s with allowsKey := !s.inFlow }.push .key |>.step 1)

def colon : Except Fault Scanner := do
  match ← s.endingKey? with
  | some k =>
    let s :=
      if s.opensBlock k.column then
        (s.indented k.column).insertAt k.tokenCount [.mappingStart, .key]
      else s.insertAt k.tokenCount [.key]
    pure ({ s with pending := none, allowsKey := false }.push .value |>.step 1)
  | none =>
    let s ←
      if s.inFlow then pure s
      else if s.allowsKey then pure (s.openBlock .mappingStart)
      else .error .misplacedKey
    pure ({ s with allowsKey := !s.inFlow }.push .value |>.step 1)

/-- An anchor or an alias. -/
def named (token : String → Token) : Except Fault Scanner := do
  let s ← s.markPending
  let (name, c) ← anchorName s.cursor
  pure ({ s with allowsKey := false, cursor := c }.push (token name))

def tagged : Except Fault Scanner := do
  let s ← s.markPending
  let s ← s.scanTag
  pure { s with allowsKey := false }

def block (isLiteral : Bool) : Except Fault Scanner := do
  let s ← s.dropPending
  let (text, c) ← scanBlock isLiteral s.indent s.cursor
  pure ({ s with allowsKey := true, cursor := c }.push
    (.scalar (String.ofList text) (if isLiteral then .literal else .folded)))

def quoted (isSingle : Bool) : Except Fault Scanner := do
  let s ← s.markPending
  let (text, c) ← scanQuoted isSingle s.cursor
  pure ({ s with allowsKey := false, cursor := c }.push
    (.scalar (String.ofList text) (if isSingle then .singleQuoted else .doubleQuoted)))

def plain : Except Fault Scanner := do
  let s ← s.markPending
  let ((text, onNewLine), c) ← scanPlain s.inFlow (s.indent + 1) s.cursor
  pure ({ s with allowsKey := onNewLine, cursor := c }.push
    (.scalar (String.ofList text) .plain))

/-- Characters that no plain scalar begins with, or only if no gap follows. -/
def isIndicator (c : Char) : Bool :=
  "-?:,[]\x7b\x7d#&*!|>'\x22%@\x60".toList.contains c

/-- Whether a plain scalar begins with a character before a text. -/
def beginsPlain (c : Char) (rest : List Char) : Bool :=
  (!isBlank c && !isIndicator c) || (c == '-' && !rest.head?.any isBlank) ||
    (!s.inFlow && (c == '?' || c == ':') && !beginsWithGap rest)

/-- The token that begins with a character before a text. -/
def token (c : Char) (rest : List Char) : Except Fault Scanner :=
  let isAlone := beginsWithGap rest
  if s.cursor.column = 0 ∧ c = '%' then do
    let s ← s.outsideBlocks
    s.directive
  else if s.cursor.isAtMark '-' then s.documentMark .documentStart
  else if s.cursor.isAtMark '.' then s.documentMark .documentEnd
  else if c = '[' then s.openBrackets .flowSequenceStart
  else if c = '\x7b' then s.openBrackets .flowMappingStart
  else if c = ']' then s.closeBrackets .flowSequenceEnd
  else if c = '\x7d' then s.closeBrackets .flowMappingEnd
  else if c = ',' then s.comma
  else if c = '-' ∧ isAlone then s.hyphen
  else if c = '?' ∧ (s.inFlow ∨ isAlone) then s.questionMark
  else if c = ':' ∧ (s.inFlow ∨ isAlone) then s.colon
  else if c = '*' then s.named .alias
  else if c = '&' then s.named .anchor
  else if c = '!' then s.tagged
  else if c = '|' ∧ !s.inFlow then s.block true
  else if c = '>' ∧ !s.inFlow then s.block false
  else if c = '\x27' then s.quoted true
  else if c = '\x22' then s.quoted false
  else if s.beginsPlain c rest then s.plain
  else .error (.unexpectedChar c)

/-! ### All tokens -/

/-- Goes over blanks, comments and line ends; in a block a line end allows a key.  A byte order
mark at the beginning of a line counts as a blank.  `fuel` is the number of characters left. -/
def skipGaps : Nat → Scanner → Scanner
  | 0, s => s
  | fuel + 1, s =>
    match s.cursor.peek? with
    | none => s
    | some c =>
      if c = '\ufeff' ∧ s.cursor.column = 0 then skipGaps fuel { s with cursor := s.cursor.next }
      else if c = ' ' ∨ (c = '\t' ∧ (s.inFlow ∨ !s.allowsKey)) then
        skipGaps fuel { s with cursor := s.cursor.next }
      else if c = '#' then skipGaps fuel { s with cursor := s.cursor.skip fun ch => !isBreak ch }
      else if isBreak c then
        skipGaps fuel { s with cursor := s.cursor.next, allowsKey := s.allowsKey || !s.inFlow }
      else s

/-- All tokens of what is left; `fuel` is the number of characters left. -/
def run : Nat → Scanner → Except Fault Scanner
  | 0, s => (s.closeBlocks (-1)).dropPending
  | fuel + 1, s =>
    let s := skipGaps (s.cursor.rest.length + 1) s
    match s.cursor.rest with
    | [] => (s.closeBlocks (-1)).dropPending
    | c :: rest => do
      let s ← (s.closeBlocks s.cursor.column).token c rest
      run fuel s

end Scanner

/-- The tokens of a text. -/
def Token.scan (text : String) : Except Fault (List Token) := do
  let cs ← charsOf text
  let s ← Scanner.run (cs.length + 1) { cursor := { rest := cs } }
  pure s.tokens.reverse

end ScreenInspector.Yaml
