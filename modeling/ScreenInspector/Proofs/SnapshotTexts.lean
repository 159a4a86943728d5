/-
  ScreenInspector/Proofs/SnapshotTexts.lean
  =========================================
  **Trees of values and of their texts.**

  A payload that was written makes the tree of what comes back.  That is the tree of the payload
  itself, if its doubles are read back as they were and at most `Tree.textDepthLimit` arrays and
  objects are nested in it (`Tree.ofText_render`).

  A node adds two of these for every level of the tree, one for the array and one for the item, and
  has three of its own.  So a text may have nodes on 62 levels below the root, and a value on
  `Malformation.depthLimit`: a tower of nodes with more levels is accepted as a value only
  (`Tree.ofText_higherTower`).
-/
import ScreenInspector.Proofs.AcceptedPayloads
import ScreenInspector.Proofs.PayloadFormats
import ScreenInspector.Proofs.ValueTexts

namespace ScreenInspector

/-! ### Levels of a payload -/

namespace Json

theorem nesting_field? {name : String} {v w : Json} (h : v.field? name = some w) :
    w.nesting < v.nesting := by
  cases v with
  | object fields =>
    obtain ⟨before, after, rfl, -⟩ := List.lookup_eq_some_iff.mp h
    have hfields :=
      nestingFields_le_iff.mp (Nat.le_refl (nestingFields (before ++ (name, w) :: after)))
    rw [nesting]
    exact Nat.lt_succ_of_le (hfields name w (by simp))
  | _ => cases h

theorem nesting_path? {path : List String} {v w : Json} (h : path? path v = some w) :
    w.nesting + path.length ≤ v.nesting := by
  induction path generalizing v with
  | nil =>
    obtain rfl := Option.some.inj h
    exact Nat.le_refl _
  | cons name rest ih =>
    rw [path?] at h
    obtain ⟨u, hu, hw⟩ := Option.bind_eq_some_iff.mp h
    have hfield := nesting_field? hu
    have hrest := ih hw
    rw [List.length_cons]
    omega

/-- An item of the children is two levels further inside. -/
theorem nesting_childValue {v w : Json} (h : w ∈ v.childValues) : w.nesting + 2 ≤ v.nesting := by
  rw [childValues] at h
  split at h
  next items hchildren =>
    have hfield := nesting_field? hchildren
    have hitem := nestingItems_le_iff.mp (Nat.le_refl (nestingItems items)) w
      (List.mem_of_mem_filter h)
    rw [nesting] at hfield
    omega
  next => cases h

theorem nesting_valueAt? {path : List Nat} {v w : Json} (h : v.valueAt? path = some w) :
    w.nesting + 2 * path.length ≤ v.nesting := by
  induction path generalizing v with
  | nil =>
    obtain rfl := Option.some.inj h
    exact Nat.le_refl _
  | cons i rest ih =>
    rw [valueAt?] at h
    obtain ⟨u, hu, hw⟩ := Option.bind_eq_some_iff.mp h
    have hchild := nesting_childValue (List.mem_of_getElem? hu)
    have hrest := ih hw
    rw [List.length_cons]
    omega

theorem nesting_pos_of_isObject {v : Json} (h : v.isObject = true) : 0 < v.nesting := by
  cases v with
  | object fields => exact Nat.succ_pos _
  | _ => cases h

theorem valueAt?_append (first second : List Nat) (v : Json) :
    v.valueAt? (first ++ second) = (v.valueAt? first).bind (valueAt? second) := by
  induction first generalizing v with
  | nil => rfl
  | cons i rest ih =>
    rw [List.cons_append, valueAt?, valueAt?, Option.bind_assoc]
    exact congrArg _ (funext ih)

theorem three_le_nesting_of_hasBox {format : PayloadFormat} {v properties : Json}
    (hproperties : v.properties? format = some properties) (h : properties.HasBox format) :
    3 ≤ v.nesting := by
  obtain ⟨rect, hrect, hnumbers⟩ := h
  have hfield := nesting_field? hrect
  cases format with
  | native =>
    obtain rfl := Option.some.inj hproperties
    obtain ⟨x, hx, -⟩ := hnumbers ["origin", "x"] (by decide)
    have hinside := nesting_path? hx
    simp only [List.length_cons, List.length_nil] at hinside
    omega
  | inspector =>
    obtain ⟨hmetadata, -⟩ := Option.filter_eq_some_iff.mp hproperties
    obtain ⟨x, hx, -⟩ := hnumbers ["x"] (by decide)
    have hinside := nesting_path? hx
    have houtside := nesting_field? hmetadata
    simp only [List.length_cons, List.length_nil] at hinside
    omega

/-- A node has a box, or others inside it. -/
theorem IsScreen.three_le_nesting {payload v : Json} (h : payload.IsScreen) {path : List Nat}
    (hv : payload.valueAt? path = some v) : 3 ≤ v.nesting := by
  obtain ⟨-, -, properties, hproperties, -, -, -, hgeometry⟩ := h.isNode path v hv
  rcases hgeometry with hbox | ⟨-, hinside⟩
  · exact three_le_nesting_of_hasBox hproperties hbox
  -- Without a box there is a node inside, an object two levels further in.
  · obtain ⟨w, rest, hw⟩ := List.exists_cons_of_ne_nil hinside
    have hchild : payload.valueAt? (path ++ [0]) = some w := by
      rw [valueAt?_append, hv, Option.bind_some, valueAt?, hw]
      rfl
    have hobject := nesting_pos_of_isObject (h.isNode _ w hchild).2.1
    have hnesting := nesting_childValue (v := v) (w := w) (by rw [hw]; exact List.mem_cons_self)
    omega

end Json

namespace Tree

variable {payload : Json} {kind : String} {t : Tree}

/-- **A tree of many levels has a payload that is nested deeper**, by two for each level. -/
theorem nesting_of_ofPayload (h : ofPayload payload kind = .ok t) {path : List Nat} {n : Node}
    (hn : t.root.at? path = some n) : 2 * path.length + 3 ≤ payload.nesting := by
  obtain ⟨v, hv, -⟩ := exists_left_of_rel (rel_of_ofPayload h path) hn
  have hnode := (isScreen_of_ofPayload h).three_le_nesting hv
  have hinside := Json.nesting_valueAt? hv
  omega

/-! ### Texts of payloads -/

/-- The text of a payload has the tree of what comes back. -/
theorem ofText_eq (h : payload.IsRegular) (kind : String) :
    ofText payload.render kind =
      (payload.reread textDepthLimit).mapError Malformation.notJson >>= fun v => ofPayload v kind := by
  rw [ofText, Json.read_render h]
  cases payload.reread textDepthLimit with
  | error fault => rfl
  | ok v => rfl

/-- A payload that is nested too deep is refused as a text. -/
theorem ofText_of_nesting_gt (h : payload.IsRegular) (hdeep : textDepthLimit < payload.nesting)
    (kind : String) : ∃ fault, ofText payload.render kind = .error (.notJson fault) := by
  obtain ⟨fault, hfault⟩ := Json.exists_reread_error hdeep
  exact ⟨fault, by rw [ofText_eq h, hfault]; rfl⟩

/-- **Texts and values agree on the payloads that a text can hold.**  The text of a payload has the
tree of the payload, if at most `textDepthLimit` arrays and objects are nested in it and its doubles
are read back as they were.  With others it has the tree of the payload with these.  If more are
nested, the text is refused, and so is the text of every payload that is accepted with a node more
than 62 levels below the root. -/
theorem ofText_render (h : payload.IsRegular) (kind : String) :
    (payload.nesting ≤ textDepthLimit → payload.RealsReadBack →
      ofText payload.render kind = ofPayload payload kind) ∧
    ofText payload.render kind =
      (payload.reread textDepthLimit).mapError Malformation.notJson >>=
        (fun v => ofPayload v kind) ∧
    (textDepthLimit < payload.nesting →
      ∃ fault, ofText payload.render kind = .error (.notJson fault)) ∧
    ∀ t path n, ofPayload payload kind = .ok t → t.root.at? path = some n → 62 < path.length →
      ∃ fault, ofText payload.render kind = .error (.notJson fault) := by
  refine ⟨?_, ofText_eq h kind, fun hdeep => ofText_of_nesting_gt h hdeep kind, ?_⟩
  · intro hnesting hreals
    rw [ofText_eq h, Json.reread_eq_self hnesting hreals]
    rfl
  · intro t path n ht hn hdeep
    have hnesting := nesting_of_ofPayload ht hn
    apply ofText_of_nesting_gt h _ kind
    rw [textDepthLimit]
    omega

end Tree

/-! ### Towers of views -/

/-- A view of one point, with others inside it. -/
def view (reference : String) (left : Json) (children : List Json) : Json :=
  .object [("children", .array children),
    ("rect", .object [("origin", .object [("x", left), ("y", .whole 0)]),
      ("size", .object [("height", .whole 1), ("width", .whole 1)])]),
    ("ref", .string reference), ("type", .string "View")]

section View

variable {reference : String} {left : Json} {children : List Json}

theorem isRegular_view (hleft : left.IsRegular) (hchildren : ∀ v ∈ children, v.IsRegular) :
    (view reference left children).IsRegular := by
  have hpair : ∀ {first second : String} {v w : Json}, first < second → v.IsRegular →
      w.IsRegular → (Json.object [(first, v), (second, w)]).IsRegular := by
    intro first second v w horder hv hw
    rw [Json.isRegular_object_iff]
    exact ⟨by simpa using horder, by simp [hv, hw]⟩
  have hzero : (Json.whole 0).IsRegular := Json.isRegular_whole (by decide) (by decide)
  have hone : (Json.whole 1).IsRegular := Json.isRegular_whole (by decide) (by decide)
  have horigin := hpair (show "x" < "y" by decide) hleft hzero
  have hsize := hpair (show "height" < "width" by decide) hone hone
  have hrect := hpair (show "origin" < "size" by decide) horigin hsize
  have horder : ["children", "rect", "ref", "type"].Pairwise (· < ·) := by decide
  rw [view, Json.isRegular_object_iff]
  refine ⟨horder, ?_⟩
  simp only [List.forall_mem_cons]
  exact ⟨Json.isRegular_array_iff.mpr hchildren, hrect, Json.isRegular_string _,
    Json.isRegular_string _, by simp⟩

theorem realsReadBack_view (hleft : left.RealsReadBack)
    (hchildren : ∀ v ∈ children, v.RealsReadBack) :
    (view reference left children).RealsReadBack := by
  intro x hx
  simp only [view, Json.all, Json.allFields, List.mem_cons, List.mem_append, List.not_mem_nil,
    or_false, false_or, reduceCtorEq, Json.mem_allItems] at hx
  rcases hx with ⟨v, hv, hx⟩ | hx
  · exact hchildren v hv x hx
  · exact hleft x hx

theorem nesting_view (hleft : left.nesting = 0) : (view reference left children).nesting =
    max 3 (Json.nestingItems children + 2) := by
  simp only [view, Json.nesting, Json.nestingFields, hleft]
  omega

theorem hasBox_view (hleft : left.isNumber = true) :
    (view reference left children).HasBox .native := by
  refine ⟨_, rfl, ?_⟩
  intro path hpath
  simp only [PayloadFormat.boxPaths, List.mem_cons, List.not_mem_nil, or_false] at hpath
  rcases hpath with rfl | rfl | rfl | rfl
  · exact ⟨left, rfl, hleft⟩
  · exact ⟨.whole 0, rfl, rfl⟩
  · exact ⟨.whole 1, rfl, rfl⟩
  · exact ⟨.whole 1, rfl, rfl⟩

theorem isNode_view (hleft : left.isNumber = true) :
    (view reference left children).IsNode .native :=
  ⟨rfl, _, rfl, ⟨.string reference, rfl, rfl⟩, ⟨.string "View", rfl, rfl⟩,
    Or.inr (Or.inr ⟨children, rfl⟩), Or.inl (hasBox_view hleft)⟩

end View

/-! ### Towers -/

def towerName (n : Nat) : String :=
  String.ofList (List.replicate (n + 1) 'v')

/-- A view with so many others inside one another. -/
def tower (left : Json) : Nat → Json
  | 0 => view (towerName 0) left []
  | n + 1 => view (towerName (n + 1)) left [tower left n]

section Tower

variable {left : Json}

theorem towerName_injective {m n : Nat} (h : towerName m = towerName n) : m = n := by
  have hlength := congrArg (fun s => s.toList.length) h
  simpa [towerName] using hlength

theorem exists_tower_eq (left : Json) (n : Nat) :
    ∃ children, tower left n = view (towerName n) left children := by
  cases n with
  | zero => exact ⟨[], rfl⟩
  | succ n => exact ⟨[tower left n], rfl⟩

theorem childValues_tower_zero : (tower left 0).childValues = [] := rfl

theorem childValues_tower_succ (n : Nat) : (tower left (n + 1)).childValues = [tower left n] := by
  obtain ⟨children, hn⟩ := exists_tower_eq left n
  show [tower left n].filter (fun item => !item.isNull) = [tower left n]
  rw [hn]
  rfl

theorem isRegular_tower (h : left.IsRegular) (n : Nat) : (tower left n).IsRegular := by
  induction n with
  | zero => exact isRegular_view h (by simp)
  | succ n ih => exact isRegular_view h (by simpa using ih)

theorem realsReadBack_tower (h : left.RealsReadBack) (n : Nat) :
    (tower left n).RealsReadBack := by
  induction n with
  | zero => exact realsReadBack_view h (by simp)
  | succ n ih => exact realsReadBack_view h (by simpa using ih)

theorem nesting_tower (h : left.nesting = 0) (n : Nat) : (tower left n).nesting = 2 * n + 3 := by
  induction n with
  | zero => exact nesting_view h
  | succ n ih =>
    rw [tower, nesting_view h]
    simp only [Json.nestingItems, ih]
    omega

/-- One path leads to each view of a tower. -/
theorem valueAt?_tower {n : Nat} {path : List Nat} {v : Json}
    (h : (tower left n).valueAt? path = some v) :
    path = List.replicate path.length 0 ∧ ∃ m, m + path.length = n ∧ v = tower left m := by
  induction path generalizing n with
  | nil => exact ⟨rfl, n, rfl, (Option.some.inj h).symm⟩
  | cons i rest ih =>
    rw [Json.valueAt?] at h
    obtain ⟨u, hu, hv⟩ := Option.bind_eq_some_iff.mp h
    cases n with
    | zero =>
      rw [childValues_tower_zero] at hu
      cases hu
    | succ n =>
      rw [childValues_tower_succ, List.getElem?_singleton] at hu
      split at hu
      next hi =>
        obtain rfl := Option.some.inj hu
        obtain ⟨hrest, m, hm, hv⟩ := ih hv
        refine ⟨?_, m, ?_, hv⟩
        · rw [hi, List.length_cons, List.replicate_succ, ← hrest]
        · rw [List.length_cons]
          omega
      next => cases hu

theorem isScreen_tower (hleft : left.isNumber = true) {n : Nat}
    (h : n ≤ Malformation.depthLimit) : (tower left n).IsScreen := by
  have hformat : PayloadFormat.ofRoot (tower left n) = .native := by
    obtain ⟨children, hn⟩ := exists_tower_eq left n
    rw [hn]
    rfl
  have hreference : ∀ m, (tower left m).reference? .native = some (towerName m) := by
    intro m
    obtain ⟨children, hm⟩ := exists_tower_eq left m
    rw [hm]
    rfl
  obtain ⟨children, hn⟩ := exists_tower_eq left n
  refine ⟨?_, ?_, ?_, ?_, ?_⟩
  · rw [hn]
    rfl
  · intro path v hv
    obtain ⟨-, m, hm, rfl⟩ := valueAt?_tower hv
    obtain ⟨inside, hview⟩ := exists_tower_eq left m
    refine ⟨by omega, ?_⟩
    rw [hformat, hview]
    exact isNode_view hleft
  · refine ⟨tower left n, by rw [hformat]; rfl, ?_⟩
    rw [hformat, hn]
    exact hasBox_view hleft
  · intro path path' v v' hv hv' heq
    obtain ⟨hpath, m, hm, rfl⟩ := valueAt?_tower hv
    obtain ⟨hpath', m', hm', rfl⟩ := valueAt?_tower hv'
    rw [hformat, hreference, hreference] at heq
    have hsame := towerName_injective (Option.some.inj heq)
    have hlength : path.length = path'.length := by omega
    rw [hpath, hpath', hlength]
  · intro source hsource
    rw [hn] at hsource
    cases hsource

end Tower

namespace Tree

/-- A tower of 62 views inside one another has a tree, as a value and as a text. -/
theorem ofText_highTower :
    (tower (.real 1.5) 62).IsRegular ∧
    ∃ t, ofPayload (tower (.real 1.5) 62) webViewKind = .ok t ∧
      ofText (tower (.real 1.5) 62).render webViewKind = .ok t := by
  have hregular : (tower (.real 1.5) 62).IsRegular :=
    isRegular_tower (Json.isRegular_real (by decide)) 62
  have hreals : (tower (.real 1.5) 62).RealsReadBack := by
    apply realsReadBack_tower
    intro x hx
    obtain rfl : x = 1.5 := by simpa [Json.all] using hx
    rfl
  have hnesting : (tower (.real 1.5) 62).nesting ≤ textDepthLimit := by
    rw [nesting_tower rfl]
    decide
  have hscreen : (tower (.real 1.5) 62).IsScreen := isScreen_tower rfl (by decide)
  obtain ⟨t, ht⟩ := exists_ofPayload hscreen webViewKind
  obtain ⟨hagree, -⟩ := ofText_render hregular webViewKind
  exact ⟨hregular, t, ht, by rw [hagree hnesting hreals, ht]⟩

/-- **One view more, and the text is refused**, although the value has a tree. -/
theorem ofText_higherTower :
    (tower (.whole 0) 63).IsRegular ∧
    (∃ t, ofPayload (tower (.whole 0) 63) webViewKind = .ok t) ∧
    ∃ fault, ofText (tower (.whole 0) 63).render webViewKind = .error (.notJson fault) := by
  have hregular : (tower (.whole 0) 63).IsRegular :=
    isRegular_tower (Json.isRegular_whole (by decide) (by decide)) 63
  have hscreen : (tower (.whole 0) 63).IsScreen := isScreen_tower rfl (by decide)
  refine ⟨hregular, exists_ofPayload hscreen webViewKind, ?_⟩
  apply ofText_of_nesting_gt hregular
  rw [nesting_tower rfl]
  decide

end Tree

end ScreenInspector
