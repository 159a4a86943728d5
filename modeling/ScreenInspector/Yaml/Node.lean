/-
  ScreenInspector/Yaml/Node.lean
  ==============================
  **Documents**: the value that tokens describe, and the values that have names.

  A value is a scalar, a sequence, a mapping, or the mention of a named value.  Names are given
  while a document is read; a mention of a name that was not given before is a fault.

  A name gets the number of the names known before it, and a mention is the mention of a number.  A
  name that is given again is no new one, so the next name gets the same number once more.  In the
  end a number means the value that began last among those with that number.
-/
import ScreenInspector.Text.Fields
import ScreenInspector.Yaml.Token

namespace ScreenInspector.Yaml

inductive Node where
  /-- A scalar; `tag` is its full tag, unless it has none or a lone exclamation mark. -/
  | scalar (text : String) (style : ScalarStyle) (tag : Option String)
  | sequence (items : List Node)
  | mapping (entries : List (Node × Node))
  /-- The mention of a named value by its number. -/
  | mention (number : Nat)
deriving Inhabited

/-- What a missing value counts as. -/
def Node.empty : Node :=
  .scalar "" .plain none

structure Document where
  /-- The value; there is none in a text without content. -/
  root : Option Node
  /-- For each number the places of its values among the named ones, the last place first. -/
  places : List (Nat × Nat)
  /-- The named values by their places, which are in the order of their beginnings. -/
  named : List (Nat × Node)
deriving Inhabited

/-- The value that a node stands for, mentions resolved. -/
def Document.resolve (d : Document) : Node → Node
  | .mention number =>
    ((d.places.lookup number).bind fun place => d.named.lookup place).getD .empty
  | n => n

/-! ### Reading tokens -/

/-- The state of reading a document: the tokens left, and the names given so far. -/
structure Reading where
  tokens : List Token
  /-- The beginnings that tag handles stand for. -/
  handles : List (List Char × List Char)
  /-- The numbers of names. -/
  numbers : Fields Nat := []
  /-- The places of named values by their numbers, the last place first. -/
  places : List (Nat × Nat) := []
  named : List (Nat × Node) := []
deriving Inhabited

namespace Reading

variable (r : Reading)

def next : Reading :=
  { r with tokens := r.tokens.tail }

end Reading

/-- Names and tags before a value. -/
structure Properties where
  anchor : Option String := none
  tag : Option RawTag := none
deriving Inhabited

/-- At most one name and one tag, in either order. -/
def properties (r : Reading) : Properties × Reading :=
  match r.tokens with
  | .anchor name :: .tag tag :: rest => (⟨some name, some tag⟩, { r with tokens := rest })
  | .tag tag :: .anchor name :: rest => (⟨some name, some tag⟩, { r with tokens := rest })
  | .anchor name :: rest => (⟨some name, none⟩, { r with tokens := rest })
  | .tag tag :: rest => (⟨none, some tag⟩, { r with tokens := rest })
  | _ => ({}, r)

/-- The full form of a tag; a lone exclamation mark says nothing. -/
def fullTag (r : Reading) : Option RawTag → Except Fault (Option String)
  | none => .ok none
  | some tag =>
    if tag.handle.isEmpty then
      .ok (if tag.suffix = ['!'] then none else some (String.ofList tag.suffix))
    else
      match r.handles.lookup tag.handle with
      | some stem => .ok (some (String.ofList (stem ++ tag.suffix)))
      | none => .error .badTag

/-- The names given after one more, with the place of the value that has it. -/
def giveName (r : Reading) : Option String → Option Nat × Reading
  | none => (none, r)
  | some name =>
    let number := r.numbers.length
    let place := r.places.length
    (some place,
      { r with numbers := r.numbers.insert name number, places := (number, place) :: r.places })

/-- The state after a value that may have a place was read. -/
def keep (place : Option Nat) (n : Node) (r : Reading) : Node × Reading :=
  match place with
  | some place => (n, { r with named := (place, n) :: r.named })
  | none => (n, r)

/-- Where a value stands: in brackets, in a block, or as an entry of a block mapping, where a
sequence need not be indented. -/
inductive Place where
  | flow
  | block
  | entry
deriving DecidableEq, Repr, Inhabited

mutual

/-- A value; `fuel` bounds the number of values and entries. -/
def value : Nat → Place → Reading → Except Fault (Node × Reading)
  | 0, _, _ => .error .tooDeep
  | fuel + 1, place, r =>
    match r.tokens with
    | .alias name :: _ =>
      match r.numbers.lookup name with
      | some number => .ok (.mention number, r.next)
      | none => .error (.unknownAnchor name)
    | _ => do
      let (p, r) := properties r
      let tag ← fullTag r p.tag
      let (named, r) := giveName r p.anchor
      let (n, r) ←
        match r.tokens, place with
        | .blockEntry :: _, .entry => do
          let (items, r) ← hyphens fuel false r
          pure (.sequence items, r)
        | .scalar text style :: _, _ => pure (.scalar text style tag, r.next)
        | .flowSequenceStart :: _, _ => do
          let (items, r) ← flowItems fuel true r.next
          pure (.sequence items, r)
        | .flowMappingStart :: _, _ => do
          let (entries, r) ← flowEntries fuel true r.next
          pure (.mapping entries, r)
        | .sequenceStart :: _, .block => do
          let (items, r) ← hyphens fuel true r.next
          pure (.sequence items, r)
        | .sequenceStart :: _, .entry => do
          let (items, r) ← hyphens fuel true r.next
          pure (.sequence items, r)
        | .mappingStart :: _, .block => do
          let (entries, r) ← blockEntries fuel r.next
          pure (.mapping entries, r)
        | .mappingStart :: _, .entry => do
          let (entries, r) ← blockEntries fuel r.next
          pure (.mapping entries, r)
        | _, _ =>
          if p.anchor.isSome || p.tag.isSome then pure (.scalar "" .plain tag, r)
          else .error .unexpectedToken
      pure (keep named n r)

/-- A value, or a missing one if the next token is one of some. -/
def valueUnless : Nat → Place → List Token → Reading → Except Fault (Node × Reading)
  | 0, _, _, _ => .error .tooDeep
  | fuel + 1, place, ends, r =>
    match r.tokens with
    | t :: _ => if ends.contains t then .ok (.empty, r) else value fuel place r
    | [] => value fuel place r

/-- The items of a block sequence, each after a hyphen; one with a block of its own ends with
it. -/
def hyphens : Nat → Bool → Reading → Except Fault (List Node × Reading)
  | 0, _, _ => .error .tooDeep
  | fuel + 1, ownBlock, r =>
    match r.tokens with
    | .blockEntry :: _ => do
      let ends := if ownBlock then [Token.blockEntry, .blockEnd]
        else [.blockEntry, .key, .value, .blockEnd]
      let (n, r) ← valueUnless fuel .block ends r.next
      let (items, r) ← hyphens fuel ownBlock r
      pure (n :: items, r)
    | .blockEnd :: _ => .ok ([], if ownBlock then r.next else r)
    | _ => if ownBlock then .error .unexpectedToken else .ok ([], r)

/-- What follows a mark for a value, or a missing value without the mark. -/
def afterMark : Nat → Place → List Token → Reading → Except Fault (Node × Reading)
  | 0, _, _, _ => .error .tooDeep
  | fuel + 1, place, ends, r =>
    match r.tokens with
    | .value :: _ => valueUnless fuel place ends r.next
    | _ => .ok (.empty, r)

/-- The entries of a block mapping. -/
def blockEntries : Nat → Reading → Except Fault (List (Node × Node) × Reading)
  | 0, _ => .error .tooDeep
  | fuel + 1, r =>
    match r.tokens with
    | .blockEnd :: _ => .ok ([], r.next)
    | .key :: _ => do
      let ends := [Token.key, .value, .blockEnd]
      let (k, r) ← valueUnless fuel .entry ends r.next
      let (v, r) ← afterMark fuel .entry ends r
      let (entries, r) ← blockEntries fuel r
      pure ((k, v) :: entries, r)
    | _ => .error .unexpectedToken

/-- The items of a sequence in brackets; a key in it makes a mapping of one entry.  A key that is
missing takes the token in its place with it. -/
def flowItems : Nat → Bool → Reading → Except Fault (List Node × Reading)
  | 0, _, _ => .error .tooDeep
  | fuel + 1, isFirst, r => do
    let r ←
      match r.tokens with
      | .flowSequenceEnd :: _ => pure r
      | .flowEntry :: _ => if isFirst then .error .unexpectedToken else pure r.next
      | _ => if isFirst then pure r else .error .unexpectedToken
    match r.tokens with
    | .flowSequenceEnd :: _ => pure ([], r.next)
    | .key :: _ =>
      let r := r.next
      let (k, r) ←
        match r.tokens with
        | .value :: _ => pure (.empty, r.next)
        | .flowEntry :: _ => pure (.empty, r.next)
        | .flowSequenceEnd :: _ => pure (.empty, r.next)
        | _ => value fuel .flow r
      let (v, r) ← afterMark fuel .flow [.flowEntry, .flowSequenceEnd] r
      let (items, r) ← flowItems fuel false r
      pure (.mapping [(k, v)] :: items, r)
    | _ =>
      let (n, r) ← value fuel .flow r
      let (items, r) ← flowItems fuel false r
      pure (n :: items, r)

/-- The entries of a mapping in brackets; a value without a mark is a key of nothing. -/
def flowEntries : Nat → Bool → Reading → Except Fault (List (Node × Node) × Reading)
  | 0, _, _ => .error .tooDeep
  | fuel + 1, isFirst, r => do
    let r ←
      match r.tokens with
      | .flowMappingEnd :: _ => pure r
      | .flowEntry :: _ => if isFirst then .error .unexpectedToken else pure r.next
      | _ => if isFirst then pure r else .error .unexpectedToken
    match r.tokens with
    | .flowMappingEnd :: _ => pure ([], r.next)
    | .key :: _ =>
      let (k, r) ← valueUnless fuel .flow [.value, .flowEntry, .flowMappingEnd] r.next
      let (v, r) ← afterMark fuel .flow [.flowEntry, .flowMappingEnd] r
      let (entries, r) ← flowEntries fuel false r
      pure ((k, v) :: entries, r)
    | _ =>
      let (k, r) ← value fuel .flow r
      let (entries, r) ← flowEntries fuel false r
      pure ((k, .empty) :: entries, r)

end

/-! ### Documents -/

/-- The handles that need no directive. -/
def commonHandles : List (List Char × List Char) :=
  [(['!'], ['!']), (['!', '!'], "tag:yaml.org,2002:".toList)]

/-- Directives at the beginning of a document: the tokens after them, and the handles that they
give. -/
def directives : Bool → List (List Char × List Char) → List Token →
    Except Fault (List Token × List (List Char × List Char))
  | hasVersion, handles, .version major minor :: rest =>
    if hasVersion || major != 1 || !(minor == 1 || minor == 2) then .error .badDirective
    else directives true handles rest
  | hasVersion, handles, .tagHandle handle stem :: rest =>
    if (handles.lookup handle).isSome then .error .badDirective
    else directives hasVersion ((handle, stem) :: handles) rest
  | _, handles, rest => .ok (rest, handles)

/-- The tokens of the first document, and the handles that hold in it.  A mark must stand between
directives and content. -/
def opening (tokens : List Token) : Except Fault (List Token × List (List Char × List Char)) := do
  let (rest, handles) ← directives false [] tokens
  let handles := handles ++ commonHandles.filter fun h => (handles.lookup h.1).isNone
  match rest with
  | .documentStart :: rest => pure (rest, handles)
  | _ => if rest.length = tokens.length then pure (rest, handles) else .error .badDirective

/-- Tokens that no content begins with. -/
def isOutside : Token → Bool
  | .version _ _ => true
  | .tagHandle _ _ => true
  | .documentStart => true
  | .documentEnd => true
  | _ => false

/-- The document that a text writes; the text must not hold more than one. -/
def Document.read (text : String) : Except Fault Document := do
  let tokens ← Token.scan text
  if tokens.isEmpty then pure ⟨none, [], []⟩
  else
    let (content, handles) ← opening tokens
    let r : Reading := { tokens := content, handles := handles }
    let (root, r) ←
      match content with
      | [] => pure (Node.empty, r)
      | t :: _ =>
        if isOutside t && content.length < tokens.length then pure (Node.empty, r)
        else value (4 * tokens.length + 4) .block r
    if (r.tokens.dropWhile (· == .documentEnd)).isEmpty then
      pure ⟨some root, r.places, r.named⟩
    else .error .manyDocuments

end ScreenInspector.Yaml
