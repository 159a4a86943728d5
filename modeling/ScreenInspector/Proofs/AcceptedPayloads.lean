/-
  ScreenInspector/Proofs/AcceptedPayloads.lean
  ============================================
  **Which payloads are accepted**, and the tree that an accepted one describes.

  The values that a payload has for nodes are reached through the items of `children` that are not
  null; a path of positions leads to each (`Json.valueAt?`).  What such a value must have is said of
  it alone (`Json.IsNode`); what only the whole payload shows is the depth of the paths, the
  references, the box of the root and the source text (`Json.IsScreen`).

  A reader of nodes succeeds iff this holds for the value at hand and the reader of its children
  succeeds for every child (`readNodeWith_sound`, `exists_readNodeWith`); by induction on the levels
  that are left, the node that is read has the shape of the value (`readNode_sound`), and every
  value of the right form is read (`exists_readNode`).
-/
import ScreenInspector.Proofs.NodePaths

namespace ScreenInspector

/-! ### Values that describe nodes -/

/-- Where a format has the four numbers of a box. -/
def PayloadFormat.boxPaths : PayloadFormat → List (List String)
  | .native => [["origin", "x"], ["origin", "y"], ["size", "width"], ["size", "height"]]
  | .inspector => [["x"], ["y"], ["w"], ["h"]]

namespace Json

def isNumber : Json → Bool
  | .whole _ => true
  | .real _ => true
  | _ => false

/-- A string, a boolean or a number. -/
def isScalar : Json → Bool
  | .string _ => true
  | .bool _ => true
  | v => v.isNumber

/-- The values inside a value: the items of its children that are not null. -/
def childValues (v : Json) : List Json :=
  match v.field? "children" with
  | some (.array items) => items.filter fun item => !item.isNull
  | _ => []

/-- The value at the end of a path. -/
def valueAt? : List Nat → Json → Option Json
  | [], v => some v
  | i :: rest, v => v.childValues[i]?.bind (valueAt? rest)

/-- The value that holds the properties of an element. -/
def properties? (format : PayloadFormat) (v : Json) : Option Json :=
  match format with
  | .native => some v
  | .inspector => (v.field? "metadata").filter isObject

def HasScalar (properties : Json) (name : String) : Prop :=
  ∃ v, properties.field? name = some v ∧ v.isScalar = true

def HasBox (properties : Json) (format : PayloadFormat) : Prop :=
  ∃ rect, properties.field? "rect" = some rect ∧
    ∀ path ∈ format.boxPaths, ∃ x, path? path rect = some x ∧ x.isNumber = true

def HasNoBox (properties : Json) : Prop :=
  properties.field? "rect" = none ∨ properties.field? "rect" = some .null

def HasChildren (v : Json) : Prop :=
  v.field? "children" = none ∨ v.field? "children" = some .null ∨
    ∃ items, v.field? "children" = some (.array items)

/-- What a value must have to describe a node, apart from the values inside it. -/
def IsNode (format : PayloadFormat) (v : Json) : Prop :=
  v.isObject = true ∧ ∃ properties, v.properties? format = some properties ∧
    properties.HasScalar format.referenceField ∧ properties.HasScalar "type" ∧ v.HasChildren ∧
    (properties.HasBox format ∨ properties.HasNoBox ∧ v.childValues ≠ [])

/-- The reference that a value has for its node. -/
def reference? (format : PayloadFormat) (v : Json) : Option String :=
  (v.properties? format).bind fun properties => properties.scalarField? format.referenceField

/-- A node has the reference and the kind that its value says, a box iff the value has one, and as
many children as there are values inside it. -/
structure Describes (format : PayloadFormat) (v : Json) (n : Node) : Prop where
  reference_eq : v.reference? format = some n.reference
  kind_eq : (v.properties? format).bind (scalarField? · "type") = some n.element.kind
  box_iff : n.element.rect.isSome = true ↔
    ∃ properties, v.properties? format = some properties ∧ properties.HasBox format
  length_children : n.children.length = v.childValues.length

/-- What a payload must be to describe a tree. -/
structure IsScreen (payload : Json) : Prop where
  isObject : payload.isObject = true
  isNode : ∀ path v, payload.valueAt? path = some v →
    path.length ≤ Malformation.depthLimit ∧ v.IsNode (.ofRoot payload)
  hasBox : ∃ properties, payload.properties? (.ofRoot payload) = some properties ∧
    properties.HasBox (.ofRoot payload)
  distinct : ∀ path path' v v', payload.valueAt? path = some v → payload.valueAt? path' = some v' →
    v.reference? (.ofRoot payload) = v'.reference? (.ofRoot payload) → path = path'
  isDocument : ∀ source, path? ["metadata", "xml"] payload = some (.string source) →
    Text.isBlankText source = false → ∃ nodes, Markup.readNodes source = .ok nodes

end Json

/-! ### Reading the parts of a node -/

theorem Json.isSome_scalar? (v : Json) : v.scalar?.isSome = v.isScalar := by
  cases v <;> rfl

theorem Json.isSome_float? (v : Json) : v.float?.isSome = v.isNumber := by
  cases v <;> rfl

theorem Json.isSome_scalarField? (properties : Json) (name : String) :
    (properties.scalarField? name).isSome = true ↔ properties.HasScalar name := by
  rw [scalarField?, HasScalar]
  cases properties.field? name with
  | none => simp
  | some v => simp [isSome_scalar?]

theorem PayloadFormat.properties_eq_ok_iff {format : PayloadFormat} {v properties : Json} :
    format.properties v = .ok properties ↔ v.properties? format = some properties := by
  cases format with
  | native => simp [PayloadFormat.properties, Json.properties?]
  | inspector =>
    rw [PayloadFormat.properties, Json.properties?]
    cases v.field? "metadata" with
    | none => simp
    | some metadata => cases metadata <;> simp [Option.filter, Json.isObject]

theorem rectNumber_eq_ok_iff {reference : String} {rect : Json} {path : List String} {x : Float} :
    rectNumber reference rect path = .ok x ↔ (Json.path? path rect).bind Json.float? = some x := by
  rw [rectNumber]
  cases (Json.path? path rect).bind Json.float? <;> simp

theorem exists_rectNumber_iff (reference : String) {rect : Json} {path : List String} :
    (∃ x, rectNumber reference rect path = .ok x) ↔
      ∃ x, Json.path? path rect = some x ∧ x.isNumber = true := by
  simp only [rectNumber_eq_ok_iff]
  cases Json.path? path rect with
  | none => simp
  | some v => simp [← Option.isSome_iff_exists, v.isSome_float?]

section Box

variable {format : PayloadFormat} {reference : String} {properties : Json}

theorem readRect_eq_none_iff :
    readRect format reference properties = .ok none ↔ properties.HasNoBox := by
  rw [readRect, Json.HasNoBox]
  cases hfield : properties.field? "rect" with
  | none => simp
  | some rect => cases rect <;> simp [bind_eq_ok_iff]

theorem exists_rectNumbers_iff (format : PayloadFormat) (reference : String) (rect : Json) :
    (∃ r, (do
      let ((px, py), (pw, ph)) := format.rectPaths
      let x ← rectNumber reference rect px
      let y ← rectNumber reference rect py
      let w ← rectNumber reference rect pw
      let h ← rectNumber reference rect ph
      pure (some (Rect.mk x y w h)) : Except Malformation (Option Rect)) = .ok (some r)) ↔
      ∀ path ∈ format.boxPaths, ∃ x, Json.path? path rect = some x ∧ x.isNumber = true := by
  simp only [← exists_rectNumber_iff reference]
  cases format with
  | native =>
    simp [PayloadFormat.rectPaths, PayloadFormat.boxPaths, bind_eq_ok_iff]
  | inspector =>
    simp [PayloadFormat.rectPaths, PayloadFormat.boxPaths, bind_eq_ok_iff]

theorem exists_readRect_iff (reference : String) :
    (∃ r, readRect format reference properties = .ok (some r)) ↔ properties.HasBox format := by
  rw [readRect, Json.HasBox]
  cases properties.field? "rect" with
  | none => simp
  | some rect =>
    have hnumbers := exists_rectNumbers_iff format reference rect
    simp only [Option.some.injEq, exists_eq_left', ← hnumbers]
    -- Null is read as no box, but it has none of the four numbers either.
    cases rect with
    | null =>
      rw [hnumbers]
      cases format with
      | native => simp [PayloadFormat.boxPaths, Json.path?, Json.field?]
      | inspector => simp [PayloadFormat.boxPaths, Json.path?, Json.field?]
    | _ => rfl

end Box

section Items

variable {read : Json → Except Malformation Node}

/-- The items that are not null are read one by one. -/
theorem readItems_eq_ok_iff {items : List Json} {ns : List Node} :
    readItems read items = .ok ns ↔
      List.Forall₂ (fun v n => read v = .ok n) (items.filter fun item => !item.isNull) ns := by
  induction items generalizing ns with
  | nil => simp [readItems, eq_comm]
  | cons v rest ih =>
    by_cases hnull : v = .null
    · subst hnull
      exact ih
    · have hitem : readItems read (v :: rest) =
          read v >>= fun n => readItems read rest >>= fun ns => pure (n :: ns) := by
        cases v with
        | null => exact absurd rfl hnull
        | _ => rfl
      have hkept : (!v.isNull) = true := by
        cases v with
        | null => exact absurd rfl hnull
        | _ => rfl
      rw [hitem, List.filter_cons, if_pos hkept, List.forall₂_cons_left_iff]
      simp only [bind_eq_ok_iff, ih, pure_eq_ok, Except.ok.injEq]
      constructor
      · rintro ⟨n, hn, ms, hms, rfl⟩
        exact ⟨n, ms, hn, hms, rfl⟩
      · rintro ⟨n, ms, hn, hms, rfl⟩
        exact ⟨n, hn, ms, hms, rfl⟩

theorem readChildren_eq_ok_iff {reference : String} {v : Json} {ns : List Node} :
    readChildren read reference v = .ok ns ↔
      v.HasChildren ∧ List.Forall₂ (fun w n => read w = .ok n) v.childValues ns := by
  rw [readChildren, Json.HasChildren, Json.childValues]
  cases v.field? "children" with
  | none => simp [eq_comm]
  | some children =>
    cases children with
    | null => simp [eq_comm]
    | array items => simp [readItems_eq_ok_iff]
    | _ => simp

/-- What is known of a node that was read. -/
theorem readNodeWith_sound {format : PayloadFormat} {v : Json} {n : Node}
    (h : readNodeWith read format v = .ok n) :
    v.IsNode format ∧ v.Describes format n ∧
      List.Forall₂ (fun w m => read w = .ok m) v.childValues n.children := by
  rw [readNodeWith] at h
  cases hobject : v.isObject with
  | false => simp [hobject] at h
  | true =>
    simp only [hobject, Bool.not_true, Bool.false_eq_true, if_false] at h
    obtain ⟨properties, hproperties, h⟩ := bind_eq_ok_iff.mp h
    rw [PayloadFormat.properties_eq_ok_iff] at hproperties
    cases hreference : properties.scalarField? format.referenceField with
    | none => simp [hreference] at h
    | some reference =>
      cases hkind : properties.scalarField? "type" with
      | none => simp [hreference, hkind] at h
      | some kind =>
        simp only [hreference, hkind] at h
        obtain ⟨children, hchildren, h⟩ := bind_eq_ok_iff.mp h
        obtain ⟨rect, hrect, h⟩ := bind_eq_ok_iff.mp h
        obtain ⟨hform, hread⟩ := readChildren_eq_ok_iff.mp hchildren
        split at h
        · cases h
        next hgeometry =>
          obtain rfl := Except.ok.inj h
          have hreferenceField : properties.HasScalar format.referenceField := by
            rw [← Json.isSome_scalarField?, hreference]
            rfl
          have hkindField : properties.HasScalar "type" := by
            rw [← Json.isSome_scalarField?, hkind]
            rfl
          have hbox : rect.isSome = true ↔ properties.HasBox format := by
            rw [← exists_readRect_iff reference, hrect]
            cases rect <;> simp
          refine ⟨⟨hobject, properties, hproperties, hreferenceField, hkindField, hform, ?_⟩, ?_,
            hread⟩
          · cases rect with
            | some r => exact Or.inl (hbox.mp rfl)
            | none =>
              refine Or.inr ⟨readRect_eq_none_iff.mp hrect, ?_⟩
              intro hnone
              rw [hnone, List.forall₂_nil_left_iff] at hread
              exact hgeometry (by simp [hread])
          · exact ⟨by simp [Json.reference?, hproperties, hreference, Node.reference, Node.element],
              by simp [hproperties, hkind, Node.element],
              by simp [hproperties, hbox, Node.element], hread.length_eq.symm⟩

/-- A value of the right form is read, whatever its children are read as. -/
theorem exists_readNodeWith {format : PayloadFormat} {v : Json} {ns : List Node}
    (hnode : v.IsNode format)
    (hread : List.Forall₂ (fun w m => read w = .ok m) v.childValues ns) :
    ∃ n, readNodeWith read format v = .ok n := by
  obtain ⟨hobject, properties, hproperties, hreference, hkind, hform, hgeometry⟩ := hnode
  obtain ⟨reference, hreference⟩ := Option.isSome_iff_exists.mp
    ((properties.isSome_scalarField? format.referenceField).mpr hreference)
  obtain ⟨kind, hkind⟩ := Option.isSome_iff_exists.mp
    ((properties.isSome_scalarField? "type").mpr hkind)
  have hchildren : readChildren read reference v = .ok ns :=
    readChildren_eq_ok_iff.mpr ⟨hform, hread⟩
  have hrect : ∃ rect, readRect format reference properties = .ok rect ∧
      (rect.isNone && ns.isEmpty) = false := by
    rcases hgeometry with hbox | ⟨hnoBox, hinside⟩
    · obtain ⟨r, hr⟩ := (exists_readRect_iff _).mpr hbox
      exact ⟨some r, hr, rfl⟩
    · refine ⟨none, readRect_eq_none_iff.mpr hnoBox, ?_⟩
      cases ns with
      | nil => exact absurd (List.forall₂_nil_right_iff.mp hread) hinside
      | cons n rest => rfl
  obtain ⟨rect, hrect, hgeometry⟩ := hrect
  rw [readNodeWith, hobject, PayloadFormat.properties_eq_ok_iff.mpr hproperties]
  simp only [Bool.not_true, Bool.false_eq_true, if_false, ok_bind, hreference, hkind, hchildren,
    hrect, hgeometry, pure_eq_ok]
  exact ⟨_, rfl⟩

end Items

/-! ### Reading nodes level by level -/

section Lists

variable {α β : Type} {r : α → β → Prop}

theorem forall₂_getElem? {as : List α} {bs : List β} (h : List.Forall₂ r as bs) (i : Nat) :
    Option.Rel r as[i]? bs[i]? := by
  induction h generalizing i with
  | nil => exact .none
  | cons hhead _ ih =>
    cases i with
    | zero => exact .some hhead
    | succ i => exact ih i

theorem exists_forall₂ {as : List α} (h : ∀ a ∈ as, ∃ b, r a b) :
    ∃ bs, List.Forall₂ r as bs := by
  induction as with
  | nil => exact ⟨[], .nil⟩
  | cons a rest ih =>
    obtain ⟨⟨b, hb⟩, hrest⟩ := List.forall_mem_cons.mp h
    obtain ⟨bs, hbs⟩ := ih hrest
    exact ⟨b :: bs, .cons hb hbs⟩

theorem exists_right_of_rel {x : Option α} {y : Option β} {a : α} (h : Option.Rel r x y)
    (hx : x = some a) : ∃ b, y = some b ∧ r a b := by
  subst hx
  cases h with
  | some hab => exact ⟨_, rfl, hab⟩

theorem exists_left_of_rel {x : Option α} {y : Option β} {b : β} (h : Option.Rel r x y)
    (hy : y = some b) : ∃ a, x = some a ∧ r a b := by
  subst hy
  cases h with
  | some hab => exact ⟨_, rfl, hab⟩

end Lists

/-- **A node that was read has the shape of its value**, and on every path the node describes the
value there. -/
theorem readNode_sound {format : PayloadFormat} {levels : Nat} {v : Json} {n : Node}
    (h : readNode format levels v = .ok n) (path : List Nat) :
    Option.Rel (fun w m => path.length < levels ∧ w.IsNode format ∧ w.Describes format m)
      (v.valueAt? path) (n.at? path) := by
  induction levels generalizing v n path with
  | zero => cases h
  | succ levels ih =>
    obtain ⟨hnode, hdescribes, hread⟩ := readNodeWith_sound h
    cases path with
    | nil => exact .some ⟨Nat.succ_pos levels, hnode, hdescribes⟩
    | cons i rest =>
      -- The value has a child at this position iff the node has one.
      have hchild := forall₂_getElem? hread i
      rw [Json.valueAt?, Node.at?_cons]
      generalize v.childValues[i]? = w at hchild
      generalize n.children[i]? = m at hchild
      cases hchild with
      | none => exact .none
      | @some w m hm =>
        have hbelow := ih hm rest
        rw [Option.bind_some, Option.bind_some]
        generalize w.valueAt? rest = w' at hbelow
        generalize m.at? rest = m' at hbelow
        cases hbelow with
        | none => exact .none
        | some hfound => exact .some ⟨Nat.succ_lt_succ hfound.1, hfound.2⟩

/-- **A value is read if all values inside it have the right form** and none lies too deep. -/
theorem exists_readNode {format : PayloadFormat} {levels : Nat} {v : Json}
    (h : ∀ path w, v.valueAt? path = some w → path.length < levels ∧ w.IsNode format) :
    ∃ n, readNode format levels v = .ok n := by
  induction levels generalizing v with
  | zero => exact absurd (h [] v rfl).1 (Nat.not_lt_zero _)
  | succ levels ih =>
    have hchildren : ∀ w ∈ v.childValues, ∃ m, readNode format levels w = .ok m := by
      intro w hw
      obtain ⟨i, hi⟩ := List.getElem?_of_mem hw
      apply ih
      intro path x hx
      have hbelow : v.valueAt? (i :: path) = some x := by
        rw [Json.valueAt?, hi]
        exact hx
      obtain ⟨hlength, hnode⟩ := h (i :: path) x hbelow
      exact ⟨Nat.lt_of_succ_lt_succ hlength, hnode⟩
    obtain ⟨ns, hns⟩ := exists_forall₂ hchildren
    exact exists_readNodeWith (h [] v rfl).2 hns

/-! ### Accepted payloads -/

namespace Tree

variable {payload : Json} {kind : String} {t : Tree}

/-- The source text that comes with a payload. -/
theorem servedSource?_eq_some_iff {source : String} :
    servedSource? payload = some source ↔
      Json.path? ["metadata", "xml"] payload = some (.string source) ∧
        Text.isBlankText source = false := by
  have hstring : ∀ v : Json, v.string? = some source ↔ v = .string source := by
    intro v
    cases v <;> simp [Json.string?]
  simp [servedSource?, Option.filter_eq_some_iff, Option.bind_eq_some_iff, hstring]

/-- A payload is accepted iff its root is read and the tree can be assembled. -/
theorem ofPayload_eq_ok_iff : ofPayload payload kind = .ok t ↔ payload.isObject = true ∧
    ∃ root, readNode (.ofRoot payload) (Malformation.depthLimit + 1) payload = .ok root ∧
      assemble root (servedSource? payload) kind = .ok t := by
  rw [ofPayload]
  cases payload.isObject with
  | false => simp
  | true => simp [bind_eq_ok_iff]

/-- The references of a node that was read are pairwise distinct iff those of its value are. -/
theorem nodup_references_iff {format : PayloadFormat} {levels : Nat} {root : Node}
    (h : readNode format levels payload = .ok root) :
    (root.all.map Node.reference).Nodup ↔ ∀ path path' v v', payload.valueAt? path = some v →
      payload.valueAt? path' = some v' → v.reference? format = v'.reference? format →
        path = path' := by
  rw [Node.nodup_references_iff]
  have hrel := readNode_sound h
  constructor
  · intro hdistinct path path' v v' hv hv' heq
    obtain ⟨m, hm, -, -, hdescribes⟩ := exists_right_of_rel (hrel path) hv
    obtain ⟨m', hm', -, -, hdescribes'⟩ := exists_right_of_rel (hrel path') hv'
    rw [hdescribes.reference_eq, hdescribes'.reference_eq, Option.some.injEq] at heq
    exact hdistinct path path' m m' hm hm' heq
  · intro hdistinct path path' m m' hm hm' heq
    obtain ⟨v, hv, -, -, hdescribes⟩ := exists_left_of_rel (hrel path) hm
    obtain ⟨v', hv', -, -, hdescribes'⟩ := exists_left_of_rel (hrel path') hm'
    apply hdistinct path path' v v' hv hv'
    rw [hdescribes.reference_eq, hdescribes'.reference_eq, heq]

theorem isScreen_of_ofPayload (h : ofPayload payload kind = .ok t) : payload.IsScreen := by
  obtain ⟨hobject, root, hroot, hassemble⟩ := ofPayload_eq_ok_iff.mp h
  obtain ⟨hrect, hnodup, hdocument, -⟩ := assemble_eq_ok_iff.mp hassemble
  have hrel := readNode_sound hroot
  refine ⟨hobject, ?_, ?_, (nodup_references_iff hroot).mp hnodup, ?_⟩
  · intro path v hv
    obtain ⟨m, -, hlevels, hnode, -⟩ := exists_right_of_rel (hrel path) hv
    exact ⟨Nat.le_of_lt_succ hlevels, hnode⟩
  · obtain ⟨m, hm, -, -, hdescribes⟩ := exists_right_of_rel (hrel []) rfl
    obtain rfl := Option.some.inj hm
    exact hdescribes.box_iff.mp hrect
  · intro source hsource hblank
    exact hdocument source (servedSource?_eq_some_iff.mpr ⟨hsource, hblank⟩)

theorem exists_ofPayload (h : payload.IsScreen) (kind : String) :
    ∃ t, ofPayload payload kind = .ok t := by
  have hnodes : ∀ path v, payload.valueAt? path = some v →
      path.length < Malformation.depthLimit + 1 ∧ v.IsNode (.ofRoot payload) := by
    intro path v hv
    obtain ⟨hdepth, hnode⟩ := h.isNode path v hv
    exact ⟨Nat.lt_succ_of_le hdepth, hnode⟩
  obtain ⟨root, hroot⟩ := exists_readNode hnodes
  obtain ⟨m, hm, -, -, hdescribes⟩ := exists_right_of_rel (readNode_sound hroot []) rfl
  obtain rfl := Option.some.inj hm
  refine ⟨_, ofPayload_eq_ok_iff.mpr ⟨h.isObject, root, hroot, assemble_eq_ok_iff.mpr
    ⟨hdescribes.box_iff.mpr h.hasBox, (nodup_references_iff hroot).mpr h.distinct, ?_, rfl⟩⟩⟩
  intro source hserved
  obtain ⟨hsource, hblank⟩ := servedSource?_eq_some_iff.mp hserved
  exact h.isDocument source hsource hblank

/-- The tree of a payload has a node on every path that leads to a value, and nowhere else. -/
theorem rel_of_ofPayload (h : ofPayload payload kind = .ok t) (path : List Nat) :
    Option.Rel (fun v n => v.IsNode (.ofRoot payload) ∧ v.Describes (.ofRoot payload) n)
      (payload.valueAt? path) (t.root.at? path) := by
  obtain ⟨-, root, hroot, hassemble⟩ := ofPayload_eq_ok_iff.mp h
  rw [(assemble_ok hassemble).1]
  have hrel := readNode_sound hroot path
  generalize payload.valueAt? path = v at hrel
  generalize root.at? path = n at hrel
  cases hrel with
  | none => exact .none
  | some hfound => exact .some hfound.2

/-- A node without a box has others inside it. -/
theorem children_ne_nil_of_ofPayload (h : ofPayload payload kind = .ok t) {n : Node}
    (hn : n ∈ t.nodes) (hrect : n.element.rect = none) : n.children ≠ [] := by
  obtain ⟨path, hpath⟩ := Node.mem_all_iff.mp hn
  obtain ⟨v, -, hnode, hdescribes⟩ := exists_left_of_rel (rel_of_ofPayload h path) hpath
  obtain ⟨-, properties, hproperties, -, -, -, hgeometry⟩ := hnode
  rcases hgeometry with hbox | ⟨-, hinside⟩
  · have hsome := hdescribes.box_iff.mpr ⟨properties, hproperties, hbox⟩
    rw [hrect] at hsome
    cases hsome
  · rw [← List.length_pos_iff, hdescribes.length_children]
    exact List.length_pos_iff.mpr hinside

/-- **Which payloads are accepted.**  A payload is accepted iff it is a screen.  Then the tree has
one node for each of its values, which the node describes, and on the same path, so they are nested
and ordered alike; and every node without a box has others inside it.  Any other payload is
malformed. -/
theorem ofPayload_iff_isScreen (payload : Json) (kind : String) :
    ((∃ t, ofPayload payload kind = .ok t) ↔ payload.IsScreen) ∧
    (¬ payload.IsScreen → ∃ cause, ofPayload payload kind = .error cause) ∧
    ∀ t, ofPayload payload kind = .ok t →
      (∀ path, Option.Rel (Json.Describes (.ofRoot payload))
        (payload.valueAt? path) (t.root.at? path)) ∧
      (∀ n ∈ t.nodes, n.element.rect = none → n.children ≠ []) := by
  refine ⟨⟨?_, fun h => exists_ofPayload h kind⟩, ?_, ?_⟩
  · rintro ⟨t, h⟩
    exact isScreen_of_ofPayload h
  · intro hother
    cases h : ofPayload payload kind with
    | error cause => exact ⟨cause, rfl⟩
    | ok t => exact absurd (isScreen_of_ofPayload h) hother
  · intro t h
    refine ⟨?_, fun n hn hrect => children_ne_nil_of_ofPayload h hn hrect⟩
    intro path
    have hrel := rel_of_ofPayload h path
    generalize payload.valueAt? path = v at hrel
    generalize t.root.at? path = n at hrel
    cases hrel with
    | none => exact .none
    | some hfound => exact .some hfound.2

end Tree

end ScreenInspector
