/-
  ScreenInspector/Screen/Element.lean
  ===================================
  **Elements of a screen** and the names derived from them.

  An element has a reference that is unique in its snapshot, a kind (the class the device
  reports), a box unless it is only there for layout, and attributes.  Its tag is the simple
  class name in a form that can stand in markup; its title is what a tree view shows.
-/
import ScreenInspector.Screen.Geometry
import ScreenInspector.Text.Fields

namespace ScreenInspector

/-- How the text of an element matched the known keys of localized texts. -/
structure Localization where
  matchCount : Nat
  key : Option String
  textsByLocale : Fields String
deriving DecidableEq, Repr, Inhabited

/-- Whether the text matched a known key. -/
def Localization.isFound (l : Localization) : Bool :=
  l.matchCount != 0

/-- One element of a screen, without the elements inside it. -/
structure Element where
  reference : String
  kind : String
  rect : Option Rect
  attributes : Fields String
  localization : Option Localization
  markup : Option String
deriving Inhabited

/-- The characters after the last `separator`, all of them if there is none. -/
def afterLast (separator : Char) (cs : List Char) : List Char :=
  (cs.reverse.takeWhile (· != separator)).reverse

/-- A character that a tag may hold. -/
def isTagChar (c : Char) : Bool :=
  c.isAlphanum || c == '_' || c == '-'

/-- A character that a tag may begin with. -/
def isTagStart (c : Char) : Bool :=
  c.isAlpha || c == '_'

/-- The characters of the tag of a kind: the simple class name, which follows the last dot and
then the last dollar sign, with `_` for every character that no tag may hold and before a
beginning that no tag may have. -/
def tagChars (kind : List Char) : List Char :=
  let simple := (afterLast '$' (afterLast '.' kind)).map fun c => if isTagChar c then c else '_'
  match simple with
  | c :: _ => if isTagStart c then simple else '_' :: simple
  | [] => ['_']

/-- The tag of a kind. -/
def tagName (kind : String) : String :=
  String.ofList (tagChars kind.toList)

namespace Element

/-- The value of an attribute as the device reports it. -/
def attribute? (e : Element) (name : String) : Option String :=
  e.attributes.lookup name

/-- The value of an attribute that says something: neither empty nor the word `null`. -/
def meaningful? (e : Element) (name : String) : Option String :=
  (e.attribute? name).filter fun v => v != "" && v != "null"

def tag (e : Element) : String :=
  tagName e.kind

/-- Identifiers with more characters than this are shortened in titles. -/
def titleLimit : Nat := 18

/-- The kind in brackets and the identifier, of which a long one is cut after fifteen
characters. -/
def title (e : Element) : String :=
  let kind := "[" ++ e.kind ++ "]"
  match e.meaningful? "id" with
  | none => kind
  | some id =>
    if titleLimit < id.toList.length then
      kind ++ "-" ++ String.ofList (id.toList.take 15) ++ "..."
    else kind ++ "-" ++ id

end Element

end ScreenInspector
