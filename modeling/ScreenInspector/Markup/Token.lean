/-
  ScreenInspector/Markup/Token.lean
  =================================
  **Tokens of a document**: tags, texts, character sections, comments and instructions.

  `scan` cuts a text into tokens.  Values and texts stay as they are written; references and
  line ends are the business of `ScreenInspector.Markup.Content`.  A document type declaration
  is no token, so a text that has one is refused.  A byte order mark and the XML declaration may
  stand before the first token.
-/
import ScreenInspector.Markup.Chars
import ScreenInspector.Markup.Fault

namespace ScreenInspector.Markup

/-- A name with the qualifier before its colon, empty if there is no colon. -/
structure QName where
  qualifier : List Char
  name : List Char
deriving DecidableEq, Repr

/-- A token.  Attribute values and texts are raw. -/
inductive Token where
  | startTag (name : QName) (attributes : List (QName × List Char)) (closed : Bool)
  | endTag (name : QName)
  | text (raw : List Char)
  | rawText (content : List Char)
  | comment
  | instruction
deriving DecidableEq, Repr

/-- What a scanner makes of a text: a result and the characters after it. -/
abbrev Scanner (α : Type) := List Char → Except Fault (α × List Char)

def skipSpace (cs : List Char) : List Char :=
  cs.dropWhile isSpace

/-- Removes a given beginning from a text. -/
def expectChars : List Char → List Char → Except Fault (List Char)
  | [], cs => .ok cs
  | _ :: _, [] => .error .endOfText
  | e :: es, c :: cs => if e = c then expectChars es cs else .error (.unexpected c)

/-- The legal characters before the first place where `stop` holds of what is left. -/
def upTo (stop : List Char → Bool) : Scanner (List Char)
  | [] => .ok ([], [])
  | c :: rest =>
    if !isLegal c then .error (.illegal c)
    else if stop (c :: rest) then .ok ([], c :: rest)
    else do
      let (taken, after) ← upTo stop rest
      pure (c :: taken, after)

/-- Whether what is left begins with `part`. -/
def startsWith (part : List Char) (cs : List Char) : Bool :=
  part.isPrefixOf cs

/-! ### Names -/

/-- Whether the characters make a name. -/
def isName : List Char → Bool
  | [] => false
  | c :: rest => isNameStart c && rest.all isNameChar

/-- A name, with a qualifier and a colon before it or without.  A colon with nothing before it is
passed over. -/
def qname : Scanner QName := fun cs =>
  let first := cs.takeWhile isNameChar
  match cs.dropWhile isNameChar with
  | ':' :: rest =>
    let second := rest.takeWhile isNameChar
    if (first.isEmpty || isName first) && isName second then
      .ok (⟨first, second⟩, rest.dropWhile isNameChar)
    else .error .badName
  | rest => if isName first then .ok (⟨[], first⟩, rest) else .error .badName

/-! ### Tags -/

/-- A name, an equals sign and a quoted value. -/
def readAttribute : Scanner (QName × List Char) := fun cs => do
  let (name, rest) ← qname cs
  let rest ← expectChars ['='] (skipSpace rest)
  match skipSpace rest with
  | [] => .error .endOfText
  | quote :: rest =>
    if quote = '\x22' ∨ quote = '\x27' then do
      let (value, rest) ← upTo (fun left => left.head? == some quote || left.head? == some '<') rest
      let rest ← expectChars [quote] rest
      pure ((name, value), rest)
    else .error (.unexpected quote)

/-- The attributes of a start tag up to its end, and whether the element is closed there;
`fuel` is at least the number of characters left. -/
def readAttributes : Nat → Scanner (List (QName × List Char) × Bool)
  | 0, _ => .error .endOfText
  | fuel + 1, cs =>
    match skipSpace cs with
    | [] => .error .endOfText
    | '/' :: rest => (expectChars ['>'] rest).map fun after => (([], true), after)
    | '>' :: rest => .ok (([], false), rest)
    | left =>
      if !cs.head?.any isSpace then .error .missingSpace
      else do
        let (a, rest) ← readAttribute left
        let ((more, closed), rest) ← readAttributes fuel rest
        pure ((a :: more, closed), rest)

/-- A start tag after its first bracket; `fuel` is more than the number of characters left. -/
def readStartTag (fuel : Nat) : Scanner Token := fun cs => do
  let (name, rest) ← qname cs
  let ((as, closed), rest) ← readAttributes fuel rest
  pure (.startTag name as closed, rest)

/-- An end tag after its bracket and slash. -/
def readEndTag : Scanner Token := fun cs => do
  let (name, rest) ← qname cs
  let rest ← expectChars ['>'] (skipSpace rest)
  pure (.endTag name, rest)

/-! ### Comments, sections, instructions and texts -/

/-- Whether two hyphens follow one another somewhere. -/
def hasDoubleHyphen : List Char → Bool
  | '-' :: '-' :: _ => true
  | _ :: rest => hasDoubleHyphen rest
  | [] => false

/-- A comment after its opening. -/
def readComment : Scanner Token := fun cs => do
  let (content, rest) ← upTo (startsWith ['-', '-', '>']) cs
  let rest ← expectChars ['-', '-', '>'] rest
  if hasDoubleHyphen content || content.getLast? == some '-' then .error .badComment
  else pure (.comment, rest)

/-- A character section after its opening. -/
def readRawText : Scanner Token := fun cs => do
  let (content, rest) ← upTo (startsWith [']', ']', '>']) cs
  let rest ← expectChars [']', ']', '>'] rest
  pure (.rawText content, rest)

/-- An instruction after its bracket and question mark. -/
def readInstruction : Scanner Token := fun cs =>
  if startsWith ['x', 'm', 'l', ' '] cs then .error .misplacedDeclaration
  else
    match cs with
    | [] => .error .endOfText
    | c :: _ =>
      if !(isNameStart c || c == ':') then .error .badName
      else do
        let rest := cs.dropWhile fun c => isNameChar c || c == ':'
        let (_, rest) ← upTo (startsWith ['?', '>']) (skipSpace rest)
        let rest ← expectChars ['?', '>'] rest
        pure (.instruction, rest)

/-- Whether the end of a character section stands somewhere. -/
def hasSectionEnd : List Char → Bool
  | ']' :: ']' :: '>' :: _ => true
  | _ :: rest => hasSectionEnd rest
  | [] => false

/-- A text up to the next bracket. -/
def readText : Scanner Token := fun cs => do
  let (raw, rest) ← upTo (fun left => left.head? == some '<') cs
  if hasSectionEnd raw then .error .sectionEndInText else pure (.text raw, rest)

/-! ### All tokens -/

/-- The first token of a text that is not empty; `fuel` is at least the number of its characters. -/
def Token.next (fuel : Nat) : Scanner Token
  | '<' :: '!' :: '-' :: '-' :: rest => readComment rest
  | '<' :: '!' :: '[' :: 'C' :: 'D' :: 'A' :: 'T' :: 'A' :: '[' :: rest => readRawText rest
  | '<' :: '?' :: rest => readInstruction rest
  | '<' :: '/' :: rest => readEndTag rest
  | '<' :: rest => readStartTag fuel rest
  | cs => readText cs

/-- The tokens of a text; `fuel` is at least the number of its characters. -/
def Token.scanFrom : Nat → List Char → Except Fault (List Token)
  | _, [] => .ok []
  | 0, _ => .error .endOfText
  | fuel + 1, cs => do
    let (token, rest) ← Token.next (fuel + 1) cs
    let tokens ← Token.scanFrom fuel rest
    pure (token :: tokens)

/-! ### The XML declaration -/

/-- Space before the next part of the declaration, unless its end follows. -/
def declarationGap (cs : List Char) : Except Fault (List Char) :=
  match cs with
  | [] => .ok []
  | c :: _ =>
    if isSpace c then .ok (skipSpace cs)
    else if startsWith ['?', '>'] cs then .ok cs
    else .error .missingSpace

/-- An attribute of the declaration if its name comes next. -/
def declarationPart (name : List Char) (cs : List Char) : Except Fault (List Char) :=
  if startsWith name cs then do
    let (_, rest) ← readAttribute cs
    pure rest
  else .ok cs

/-- What follows the declaration, whose opening and first space are gone: a version, then an
optional encoding, then an optional word on standing alone. -/
def declaration (cs : List Char) : Except Fault (List Char) := do
  let cs := skipSpace cs
  if startsWith ['v', 'e', 'r', 's', 'i', 'o', 'n'] cs then
    let (_, rest) ← readAttribute cs
    let rest ← declarationGap rest
    let rest ←
      if startsWith ['e', 'n', 'c', 'o', 'd', 'i', 'n', 'g'] rest then do
        let (_, after) ← readAttribute rest
        declarationGap after
      else pure rest
    let rest ← declarationPart ['s', 't', 'a', 'n', 'd', 'a', 'l', 'o', 'n', 'e'] rest
    expectChars ['?', '>'] (skipSpace rest)
  else .error .misplacedDeclaration

/-- What follows an optional byte order mark and an optional declaration. -/
def afterDeclaration (cs : List Char) : Except Fault (List Char) :=
  let cs := match cs with
    | '\ufeff' :: rest => rest
    | _ => cs
  match cs with
  | '<' :: '?' :: 'x' :: 'm' :: 'l' :: ' ' :: rest => declaration rest
  | _ => .ok cs

/-- The tokens of a document. -/
def Token.scan (cs : List Char) : Except Fault (List Token) := do
  let body ← afterDeclaration cs
  Token.scanFrom body.length body

end ScreenInspector.Markup
