/-
  ScreenInspector/Proofs/PayloadFormats.lean
  ==========================================
  **The two formats of payloads describe the same trees.**

  A native payload has an inspector form (`Json.inspectorForm`): at every node, the properties of
  the element move into `metadata`, the reference under its other name and the box with its numbers
  side by side; whatever is no property stays where it is.

  The metadata answers each look-up as the node did before (`field?_metadata`), so every part of an
  element is read alike, and by induction on the levels that are left every node is
  (`readNode_inspectorForm`).  Only the names of two numbers of a box differ, and a malformation
  shows them; `Malformation.inSidesByLetter` makes that change.
-/
import ScreenInspector.Proofs.Outcomes
import ScreenInspector.Proofs.Traversal
import ScreenInspector.Screen.Tree
import Mathlib.Data.List.Basic

namespace ScreenInspector

/-! ### Tables of moved fields -/

section MovedFields

variable {α : Type} (find : α → Option Json) {table : List (α × String)}

/-- The fields that are found at some places, each under a name of its own. -/
def movedFields (find : α → Option Json) (table : List (α × String)) : List (String × Json) :=
  table.filterMap fun entry => (find entry.1).map fun v => (entry.2, v)

theorem lookup_movedFields_of_not_mem {name : String} (h : name ∉ table.map Prod.snd) :
    (movedFields find table).lookup name = none := by
  rw [List.lookup_eq_none_iff]
  intro field hfield
  obtain ⟨entry, hentry, hmoved⟩ := List.mem_filterMap.mp hfield
  obtain ⟨v, -, rfl⟩ := Option.map_eq_some_iff.mp hmoved
  rw [bne_iff_ne]
  rintro rfl
  exact h (List.mem_map_of_mem hentry)

/-- A moved field is found under its name if no other field has that name. -/
theorem lookup_movedFields {place : α} {name : String} (hnodup : (table.map Prod.snd).Nodup)
    (h : (place, name) ∈ table) :
    (movedFields find table).lookup name = find place := by
  induction table with
  | nil => cases h
  | cons entry rest ih =>
    rw [List.map_cons, List.nodup_cons] at hnodup
    rcases List.mem_cons.mp h with rfl | hrest
    · have hlater := lookup_movedFields_of_not_mem find hnodup.1
      rw [movedFields] at hlater
      cases hplace : find place with
      | none => simpa [movedFields, hplace] using hlater
      | some v => simp [movedFields, hplace]
    · have hne : (name == entry.2) = false := by
        rw [beq_eq_false_iff_ne]
        rintro rfl
        exact hnodup.1 (List.mem_map.mpr ⟨_, hrest, rfl⟩)
      have hlater := ih hnodup.2 hrest
      rw [movedFields] at hlater
      cases hentry : find entry.1 with
      | none => simpa [movedFields, hentry] using hlater
      | some v => simpa [movedFields, hentry, List.lookup_cons, hne] using hlater

end MovedFields

/-! ### The inspector form of a native payload -/

namespace Json

/-- Where a native box has its numbers, and the names that an inspector's box has for them. -/
def rectTable : List (List String × String) :=
  [(["origin", "x"], "x"), (["origin", "y"], "y"), (["size", "width"], "w"),
    (["size", "height"], "h")]

/-- A native box with its numbers side by side.  What is missing stays missing, and what is no
object stays as it is. -/
def inspectorRect : Json → Json
  | .object fields => .object (movedFields (fun path => path? path (.object fields)) rectTable)
  | v => v

/-- The properties of an element, each with its name in the metadata. -/
def propertyTable : List (String × String) :=
  [("type", "type"), ("ref", "reference"), ("id", "id"), ("name", "name"), ("value", "value"),
    ("label", "label"), ("shown", "shown"), ("l10n", "l10n"), ("source", "source"),
    ("rect", "rect")]

/-- A property of a native node as it stands in the metadata. -/
def property? (node : Json) (name : String) : Option Json :=
  (node.field? name).map fun v => if name = "rect" then inspectorRect v else v

/-- The metadata of a native node. -/
def metadata (node : Json) : Json :=
  .object (movedFields node.property? propertyTable)

mutual

/-- The inspector form of a native payload.  A value that is no object is its own form. -/
def inspectorForm : Json → Json
  | .object fields => .object (("metadata", metadata (.object fields)) :: otherFields fields)
  | v => v

/-- The fields that stay at the node: all but the properties, with the children in their form. -/
def otherFields : List (String × Json) → List (String × Json)
  | [] => []
  | (name, v) :: rest =>
    if name = "children" then (name, childrenForm v) :: otherFields rest
    else if name = "metadata" ∨ name ∈ propertyTable.map Prod.fst then otherFields rest
    else (name, v) :: otherFields rest

def childrenForm : Json → Json
  | .array items => .array (itemForms items)
  | v => v

def itemForms : List Json → List Json
  | [] => []
  | v :: rest => inspectorForm v :: itemForms rest

end

/-! ### Look-ups in the inspector form -/

/-- **The metadata answers the look-ups of the node.** -/
theorem field?_metadata (node : Json) (name name' : String) (h : (name, name') ∈ propertyTable) :
    (metadata node).field? name' = node.property? name :=
  lookup_movedFields node.property? (by decide) h

theorem field?_metadata_of_ne_rect (node : Json) (name name' : String)
    (h : (name, name') ∈ propertyTable) (hrect : name ≠ "rect") :
    (metadata node).field? name' = node.field? name := by
  rw [field?_metadata node name name' h, property?]
  simp [hrect]

theorem scalarField?_metadata (node : Json) (name name' : String)
    (h : (name, name') ∈ propertyTable) (hrect : name ≠ "rect") :
    (metadata node).scalarField? name' = node.scalarField? name := by
  rw [scalarField?, scalarField?, field?_metadata_of_ne_rect node name name' h hrect]

theorem lookup_children_otherFields (fields : List (String × Json)) :
    (otherFields fields).lookup "children" = (fields.lookup "children").map childrenForm := by
  induction fields with
  | nil => rfl
  | cons field rest ih =>
    obtain ⟨name, v⟩ := field
    rw [otherFields]
    by_cases hname : name = "children"
    · subst hname
      simp
    · have hne : ("children" == name) = false := beq_eq_false_iff_ne.mpr (Ne.symm hname)
      rw [if_neg hname, List.lookup_cons, hne]
      split
      · exact ih
      · rw [List.lookup_cons, hne]
        exact ih

theorem field?_children_inspectorForm (v : Json) :
    v.inspectorForm.field? "children" = (v.field? "children").map childrenForm := by
  cases v with
  | object fields => exact lookup_children_otherFields fields
  | _ => rfl

theorem isObject_inspectorForm (v : Json) : v.inspectorForm.isObject = v.isObject := by
  cases v <;> rfl

/-- A number of a box is found where the table says. -/
theorem path?_inspectorRect (rect : Json) {path : List String} {name : String}
    (h : (path, name) ∈ rectTable) :
    path? [name] (inspectorRect rect) = path? path rect := by
  cases rect with
  | object fields =>
    have hlookup := lookup_movedFields (fun path => path? path (.object fields))
      (show (rectTable.map Prod.snd).Nodup by decide) h
    simp [path?, inspectorRect, field?, hlookup]
  | _ =>
    -- In what is no object nothing is found.
    simp only [rectTable, List.mem_cons, List.not_mem_nil, Prod.mk.injEq, or_false] at h
    rcases h with ⟨rfl, rfl⟩ | ⟨rfl, rfl⟩ | ⟨rfl, rfl⟩ | ⟨rfl, rfl⟩ <;> rfl

end Json

/-! ### Reading the two forms -/

/-- The malformation with the sides of a box named by letters. -/
def Malformation.inSidesByLetter : Malformation → Malformation
  | .noRectField reference field =>
    .noRectField reference
      (if field = "width" then "w" else if field = "height" then "h" else field)
  | m => m

theorem mapError_bind {ε ε' α β : Type} (g : ε → ε') (x : Except ε α) (f : α → Except ε β) :
    (x >>= f).mapError g = x.mapError g >>= fun a => (f a).mapError g := by
  cases x <;> rfl

theorem mapError_ok {ε ε' α : Type} (g : ε → ε') (a : α) :
    (Except.ok a : Except ε α).mapError g = .ok a := rfl

open Json (metadata propertyTable)

theorem rectNumber_inspectorRect (reference : String) (rect : Json) (path : List String)
    (name : String) (h : (path, name) ∈ Json.rectTable) :
    rectNumber reference rect.inspectorRect [name] =
      (rectNumber reference rect path).mapError Malformation.inSidesByLetter := by
  rw [rectNumber, rectNumber, rect.path?_inspectorRect h]
  cases (Json.path? path rect).bind Json.float? with
  | some x => rfl
  | none =>
    simp only [Json.rectTable, List.mem_cons, List.not_mem_nil, Prod.mk.injEq, or_false] at h
    rcases h with ⟨rfl, rfl⟩ | ⟨rfl, rfl⟩ | ⟨rfl, rfl⟩ | ⟨rfl, rfl⟩ <;> rfl

theorem readRect_metadata (reference : String) (node : Json) :
    readRect .inspector reference (metadata node) =
      (readRect .native reference node).mapError Malformation.inSidesByLetter := by
  have hfield := node.field?_metadata "rect" "rect" (by decide)
  rw [Json.property?] at hfield
  rw [readRect, readRect, hfield]
  cases node.field? "rect" with
  | none => rfl
  | some rect =>
    have hx := rectNumber_inspectorRect reference rect ["origin", "x"] "x" (by decide)
    have hy := rectNumber_inspectorRect reference rect ["origin", "y"] "y" (by decide)
    have hw := rectNumber_inspectorRect reference rect ["size", "width"] "w" (by decide)
    have hh := rectNumber_inspectorRect reference rect ["size", "height"] "h" (by decide)
    cases rect with
    | null => rfl
    | _ =>
      simp only [Option.map_some, if_true, PayloadFormat.rectPaths, mapError_bind, pure_eq_ok,
        mapError_ok, ← hx, ← hy, ← hw, ← hh]
      rfl

theorem readAttributes_metadata (node : Json) :
    readAttributes (metadata node) = readAttributes node := by
  have hkept : ∀ name ∈ keptAttributes, (name, name) ∈ propertyTable ∧ name ≠ "rect" := by decide
  rw [readAttributes, readAttributes]
  apply List.filterMap_congr
  intro name hname
  rw [node.scalarField?_metadata name name (hkept name hname).1 (hkept name hname).2]

theorem readLocalization_metadata (node : Json) :
    readLocalization (metadata node) = readLocalization node := by
  rw [readLocalization, readLocalization,
    node.field?_metadata_of_ne_rect "l10n" "l10n" (by decide) (by decide)]

section Items

variable {read read' : Json → Except Malformation Node} {g : Malformation → Malformation}

theorem readItems_itemForms (hread : ∀ v, read' v.inspectorForm = (read v).mapError g)
    (items : List Json) :
    readItems read' (Json.itemForms items) = (readItems read items).mapError g := by
  induction items with
  | nil => rfl
  | cons v rest ih =>
    have hv := hread v
    cases v with
    | null => exact ih
    | _ =>
      simp only [Json.itemForms, Json.inspectorForm, readItems] at hv ⊢
      simp only [mapError_bind, hv, ih]
      rfl

theorem readChildren_inspectorForm (hread : ∀ v, read' v.inspectorForm = (read v).mapError g)
    (hnotArray : ∀ reference, g (.childrenNotArray reference) = .childrenNotArray reference)
    (reference : String) (node : Json) :
    readChildren read' reference node.inspectorForm =
      (readChildren read reference node).mapError g := by
  rw [readChildren, readChildren, node.field?_children_inspectorForm]
  cases node.field? "children" with
  | none => rfl
  | some children =>
    cases children with
    | array items => exact readItems_itemForms hread items
    | null => rfl
    | _ => exact congrArg Except.error (hnotArray reference).symm

end Items

theorem readNodeWith_inspectorForm {read read' : Json → Except Malformation Node}
    (hread : ∀ v, read' v.inspectorForm = (read v).mapError Malformation.inSidesByLetter)
    (node : Json) :
    readNodeWith read' .inspector node.inspectorForm =
      (readNodeWith read .native node).mapError Malformation.inSidesByLetter := by
  rw [readNodeWith, readNodeWith, node.isObject_inspectorForm]
  cases node with
  | object fields =>
    have hinspector : PayloadFormat.properties .inspector (Json.object fields).inspectorForm =
        .ok (metadata (.object fields)) := rfl
    have hnative : PayloadFormat.properties .native (.object fields) = .ok (.object fields) := rfl
    have hreference := (Json.object fields).scalarField?_metadata "ref" "reference" (by decide)
      (by decide)
    have hkind := (Json.object fields).scalarField?_metadata "type" "type" (by decide) (by decide)
    have hmarkup := (Json.object fields).scalarField?_metadata "source" "source" (by decide)
      (by decide)
    have hchildren := fun reference => readChildren_inspectorForm hread (fun _ => rfl) reference
      (.object fields)
    simp only [Json.isObject, Bool.not_true, Bool.false_eq_true, if_false, hinspector, hnative,
      ok_bind, PayloadFormat.referenceField, hreference, hkind]
    cases (Json.object fields).scalarField? "ref" with
    | none => rfl
    | some reference =>
      cases (Json.object fields).scalarField? "type" with
      | none => rfl
      | some kind =>
        simp only [hchildren, readRect_metadata, readAttributes_metadata,
          readLocalization_metadata, hmarkup, mapError_bind]
        congr 1
        funext children
        congr 1
        funext rect
        split <;> rfl
  | _ => rfl

/-- **A node and its inspector form are read alike**, on any number of levels. -/
theorem readNode_inspectorForm (levels : Nat) (node : Json) :
    readNode .inspector levels node.inspectorForm =
      (readNode .native levels node).mapError Malformation.inSidesByLetter := by
  induction levels generalizing node with
  | zero => rfl
  | succ levels ih => exact readNodeWith_inspectorForm ih node

/-! ### Trees -/

theorem PathIndex.extend_mapError (index : PathIndex) (nodes : List (List Nat × Node)) :
    (PathIndex.extend index nodes).mapError Malformation.inSidesByLetter =
      PathIndex.extend index nodes := by
  induction nodes generalizing index with
  | nil => rfl
  | cons head rest ih =>
    obtain ⟨path, n⟩ := head
    rw [extend]
    split
    · rfl
    · exact ih _

/-- What is wrong with a whole tree does not lie in a box. -/
theorem Tree.assemble_mapError (root : Node) (kind : String) :
    (assemble root none kind).mapError Malformation.inSidesByLetter = assemble root none kind := by
  rw [assemble]
  split
  · rfl
  · dsimp only
    rw [mapError_bind, PathIndex.extend_mapError]
    rfl

/-- A native payload is read as a node, from which the source text is written. -/
theorem Tree.ofPayload_of_native {payload : Json} (h : payload.field? "metadata" = none)
    (hobject : payload.isObject = true) (kind : String) :
    ofPayload payload kind =
      readNode .native (Malformation.depthLimit + 1) payload >>= fun root =>
        assemble root none kind := by
  have hformat : PayloadFormat.ofRoot payload = .native := by
    simp [PayloadFormat.ofRoot, h]
  have hserved : servedSource? payload = none := by
    simp [servedSource?, Json.path?, h]
  rw [ofPayload, hobject, hformat, hserved]
  rfl

/-- An inspector form brings no source text along. -/
theorem Tree.servedSource?_inspectorForm (payload : Json) :
    servedSource? payload.inspectorForm = none := by
  cases payload with
  | object fields =>
    have hsource : (metadata (.object fields)).field? "xml" = none :=
      lookup_movedFields_of_not_mem _ (by decide)
    have hmetadata : (Json.object fields).inspectorForm.field? "metadata" =
        some (metadata (.object fields)) := rfl
    simp [servedSource?, Json.path?, hmetadata, hsource]
  | _ => rfl

theorem Tree.ofPayload_mapError (payload : Json) (h : payload.field? "metadata" = none)
    (kind : String) :
    ofPayload payload.inspectorForm kind =
      (ofPayload payload kind).mapError Malformation.inSidesByLetter := by
  cases payload with
  | object fields =>
    have hobject : (Json.object fields).inspectorForm.isObject = true := rfl
    have hformat : PayloadFormat.ofRoot (Json.object fields).inspectorForm = .inspector := rfl
    rw [ofPayload_of_native h rfl, ofPayload, hobject, hformat, servedSource?_inspectorForm,
      readNode_inspectorForm, mapError_bind]
    simp only [assemble_mapError]
    rfl
  | _ => rfl

/-- **A native payload and its inspector form describe the same tree**, with equal nodes, source
text, index and web view, or none at all; and if none, then for the same reason. -/
theorem Tree.ofPayload_inspectorForm (payload : Json) (h : payload.field? "metadata" = none)
    (kind : String) :
    (∀ t, ofPayload payload.inspectorForm kind = .ok t ↔ ofPayload payload kind = .ok t) ∧
    ∀ m, ofPayload payload kind = .error m →
      ofPayload payload.inspectorForm kind = .error m.inSidesByLetter := by
  have hform := ofPayload_mapError payload h kind
  cases hpayload : ofPayload payload kind with
  | error m =>
    rw [hpayload] at hform
    refine ⟨?_, ?_⟩
    · intro t
      simp [hform, Except.mapError]
    · rintro m' hm
      obtain rfl := Except.error.inj hm
      exact hform
  | ok t =>
    rw [hpayload, mapError_ok] at hform
    refine ⟨?_, ?_⟩
    · intro t'
      rw [hform]
    · intro m hm
      cases hm

/-- A frame without identity, with nothing and a web view inside it; the web view has a field that
is the metadata only in the other format. -/
def nativeScreen : Json :=
  .object [("type", .string "Frame"), ("ref", .whole 7), ("id", .null),
    ("rect", .object [("size", .object [("height", .whole 40), ("width", .whole 30)]),
      ("origin", .object [("x", .whole 1), ("y", .whole 2)])]),
    ("children", .array [.null, .object [("metadata", .bool true), ("ref", .string "web"),
      ("type", .string "WebView"), ("shown", .bool true), ("source", .string "<p/>"),
      ("rect", .object [("origin", .object [("x", .whole 1), ("y", .whole 2)]),
        ("size", .object [("width", .whole 3), ("height", .whole 4)])])]])]

def nativeScreenRoot : Node :=
  .node ⟨"7", "Frame", some ⟨Number.ofInt 1, Number.ofInt 2, Number.ofInt 30, Number.ofInt 40⟩,
      [], none, none⟩
    [.node ⟨"web", "WebView", some ⟨Number.ofInt 1, Number.ofInt 2, Number.ofInt 3, Number.ofInt 4⟩,
      [("shown", "true")], none, some "<p/>"⟩ []]

/-- The tree of that screen. -/
def nativeScreenTree : Tree :=
  ⟨nativeScreenRoot, nativeScreenRoot.sourceText, [("7", []), ("web", [0])], some [0]⟩

theorem Tree.ofPayload_nativeScreen :
    ofPayload nativeScreen webViewKind = .ok nativeScreenTree := by
  have hread : ∀ levels, readNode .native (levels + 2) nativeScreen = .ok nativeScreenRoot := by
    intro levels
    rfl
  have hroot : readNode .native (Malformation.depthLimit + 1) nativeScreen =
      .ok nativeScreenRoot := hread 511
  have hassemble : assemble nativeScreenRoot none webViewKind = .ok nativeScreenTree := by
    simp [assemble, webViewKind, nativeScreenTree, nativeScreenRoot, Node.withPaths,
      Node.walk_cons, Node.walk_nil, Node.labelled, Node.children, Node.element, Node.reference,
      PathIndex.extend, List.lookup_cons]
  rw [ofPayload_of_native (by decide) rfl, hroot]
  exact hassemble

/-- The inspector form of that screen has the same tree. -/
theorem Tree.ofPayload_inspectorForm_nativeScreen :
    nativeScreen.field? "metadata" = none ∧
    ofPayload nativeScreen.inspectorForm webViewKind = .ok nativeScreenTree := by
  have hnative : nativeScreen.field? "metadata" = none := by decide
  have hforms := (ofPayload_inspectorForm nativeScreen hnative webViewKind).1 nativeScreenTree
  exact ⟨hnative, hforms.mpr ofPayload_nativeScreen⟩

end ScreenInspector
