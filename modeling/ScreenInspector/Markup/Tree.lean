/-
  ScreenInspector/Markup/Tree.lean
  ================================
  **Element trees** and how they are built from tokens.

  `Builder` holds the elements that are open, the innermost first, each with the children read
  so far.  A token opens an element, closes the innermost one or adds a child; texts and
  character sections that follow one another are one text.  Names are resolved while building:
  a qualifier has to be declared in the element or around it, and no attribute may stand twice.
  Nothing asks for the content of comments and instructions, so it is not kept.
-/
import ScreenInspector.Markup.Token
import ScreenInspector.Markup.Content

namespace ScreenInspector.Markup

/-- An attribute: its namespace, if its name has a qualifier, its name and its value. -/
structure Attribute where
  space : Option String
  name : String
  value : String
deriving DecidableEq, Repr, Inhabited

/-- A node of a document. -/
inductive Node where
  | element (name : String) (attributes : List Attribute) (children : List Node)
  | text (content : String)
  | comment
  | instruction
deriving Inhabited

/-! ### Names -/

/-- The host of the two reserved namespaces. -/
def reservedHost : String := "http:" ++ "//www.w3.org"

/-- The namespace of the qualifier `xml`. -/
def xmlSpace : String := reservedHost ++ "/XML/1998/namespace"

/-- The namespace of declarations. -/
def declarationSpace : String := reservedHost ++ "/2000/xmlns/"

/-- Declared namespaces by qualifier, the innermost declaration first.  The empty qualifier
belongs to names without one. -/
abbrev Scope := List (String × String)

/-- What the attributes of one start tag declare and what else they say. -/
structure TagContent where
  declared : Scope
  others : List (QName × String)

/-- Adds a declaration of a qualifier; the reserved namespaces keep to their qualifiers. -/
def declare (declared : Scope) (qualifier uri : String) : Except Fault Scope :=
  if uri == declarationSpace then .error .reservedNamespace
  else if qualifier == "xml" then
    if uri == xmlSpace then .ok declared else .error .reservedNamespace
  else if uri == xmlSpace then .error .reservedNamespace
  else if qualifier != "" && declared.any fun d => d.1 == qualifier then
    .error (.repeatedDeclaration qualifier)
  else .ok (declared ++ [(qualifier, uri)])

/-- Sorts the attributes of a start tag into declarations and others. -/
def tagContent : TagContent → List (QName × List Char) → Except Fault TagContent
  | content, [] => .ok content
  | content, (name, raw) :: rest => do
    let value ← attributeValue raw
    let value := String.ofList value
    if name.qualifier = ['x', 'm', 'l', 'n', 's'] then
      let declared ← declare content.declared (String.ofList name.name) value
      tagContent { content with declared := declared } rest
    else if name.name = ['x', 'm', 'l', 'n', 's'] then
      let declared ← declare content.declared "" value
      tagContent { content with declared := declared } rest
    else tagContent { content with others := content.others ++ [(name, value)] } rest

/-- Resolves the names of attributes; no two may agree in namespace and name. -/
def resolveAttributes (scope : Scope) :
    List Attribute → List (QName × String) → Except Fault (List Attribute)
  | done, [] => .ok done
  | done, (name, value) :: rest => do
    let qualifier := String.ofList name.qualifier
    let space ←
      if qualifier == "" then .ok none
      else if qualifier == "xml" then .ok (some xmlSpace)
      else
        match scope.lookup qualifier with
        | some uri => .ok (some uri)
        | none => .error (.undeclared qualifier)
    let a : Attribute := ⟨space, String.ofList name.name, value⟩
    if done.any fun b => b.space == a.space && b.name == a.name then
      .error (.repeatedAttribute a.name)
    else resolveAttributes scope (done ++ [a]) rest

/-! ### Building -/

/-- An element that is open, with its children so far, the last first. -/
structure Frame where
  name : QName
  attributes : List Attribute
  scope : Scope
  children : List Node

/-- The open elements, the innermost first, and what stands beside them in the document, the
last first. -/
structure Builder where
  frames : List Frame
  top : List Node

/-- Adds a node to the last ones of a list; a text after a text prolongs it. -/
def addNode (node : Node) (before : List Node) : List Node :=
  match node, before with
  | .text more, .text content :: rest => .text (content ++ more) :: rest
  | _, _ => node :: before

/-- Adds a node to the innermost open element or to the document. -/
def Builder.add (b : Builder) (node : Node) : Builder :=
  match b.frames with
  | [] => { b with top := addNode node b.top }
  | frame :: outer =>
    { b with frames := { frame with children := addNode node frame.children } :: outer }

def Node.isElement : Node → Bool
  | .element .. => true
  | _ => false

/-- The element of a frame once all its children are there. -/
def Frame.close (frame : Frame) : Node :=
  .element (String.ofList frame.name.name) frame.attributes frame.children.reverse

/-- The declarations in force where the next element begins. -/
def Builder.scope (b : Builder) : Scope :=
  match b.frames with
  | [] => []
  | frame :: _ => frame.scope

/-- The frame of a start tag. -/
def Builder.frame (b : Builder) (name : QName) (raw : List (QName × List Char)) :
    Except Fault Frame := do
  if name.qualifier = ['x', 'm', 'l', 'n', 's'] then .error .reservedNamespace
  else
    let content ← tagContent ⟨[], []⟩ raw
    let scope := content.declared ++ b.scope
    let attributes ← resolveAttributes scope [] content.others
    let qualifier := String.ofList name.qualifier
    if qualifier != "" && (scope.lookup qualifier).isNone then .error (.undeclared qualifier)
    else pure ⟨name, attributes, scope, []⟩

/-- One token.  Beside the root element there are only comments, instructions and space. -/
def Builder.step (b : Builder) : Token → Except Fault Builder
  | .startTag name raw closed =>
    if b.frames.isEmpty && b.top.any Node.isElement then .error .contentOutsideRoot
    else do
      let frame ← b.frame name raw
      if closed then pure (b.add frame.close)
      else pure { b with frames := frame :: b.frames }
  | .endTag name =>
    match b.frames with
    | [] => .error .contentOutsideRoot
    | frame :: outer =>
      if frame.name = name then pure (Builder.add { b with frames := outer } frame.close)
      else .error (.wrongEndTag (String.ofList name.name))
  | .text raw =>
    if b.frames.isEmpty then
      if raw.all isSpace then pure b else .error .contentOutsideRoot
    else do
      let content ← textContent raw
      pure (b.add (.text (String.ofList content)))
  | .rawText raw =>
    if b.frames.isEmpty then .error .contentOutsideRoot
    else pure (b.add (.text (String.ofList (sectionContent raw))))
  | .comment => pure (b.add .comment)
  | .instruction => pure (b.add .instruction)

/-- All tokens, one after the other. -/
def Builder.run : Builder → List Token → Except Fault Builder
  | b, [] => .ok b
  | b, token :: rest => do
    let b ← b.step token
    b.run rest

/-- The nodes of a document: comments, instructions and one element. -/
def nodesOfTokens (tokens : List Token) : Except Fault (List Node) := do
  let b ← Builder.run ⟨[], []⟩ tokens
  match b.frames with
  | frame :: _ => .error (.unclosed (String.ofList frame.name.name))
  | [] => if b.top.any Node.isElement then pure b.top.reverse else .error .noRoot

/-- The nodes of a document that is given as text. -/
def readNodes (text : String) : Except Fault (List Node) := do
  let tokens ← Token.scan text.toList
  nodesOfTokens tokens

end ScreenInspector.Markup
