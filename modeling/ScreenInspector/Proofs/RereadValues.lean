/-
  ScreenInspector/Proofs/RereadValues.lean
  ========================================
  **What is left of a value that was written and read again.**

  Reading stops at the array or object for which no level is left, and at a double whose digits are
  out of range; otherwise every double becomes what is made of its digits, and all else stays
  (`Json.reread`).  So a value that is nested too deep is lost (`exists_reread_error`), and any other
  comes back as it was if its doubles do (`reread_eq_self`).
-/
import ScreenInspector.Proofs.NumberTexts

namespace ScreenInspector.Json

/-- Induction over values: a property of all items, or of the values of all fields, passes to the
array or the object. -/
theorem induction {motive : Json → Prop} (null : motive .null) (bool : ∀ b, motive (.bool b))
    (whole : ∀ n, motive (.whole n)) (real : ∀ x, motive (.real x))
    (string : ∀ s, motive (.string s))
    (array : ∀ items, (∀ v ∈ items, motive v) → motive (.array items))
    (object : ∀ fields, (∀ name v, (name, v) ∈ fields → motive v) → motive (.object fields)) :
    ∀ v, motive v
  | .null => null
  | .bool b => bool b
  | .whole n => whole n
  | .real x => real x
  | .string s => string s
  | .array items => array items fun v _ => induction null bool whole real string array object v
  | .object fields =>
    object fields fun name v hmem =>
      have hsmaller : sizeOf v < 1 + sizeOf fields := by
        have hfield := List.sizeOf_lt_of_mem hmem
        rw [Prod.mk.sizeOf_spec] at hfield
        omega
      induction null bool whole real string array object v
termination_by v => sizeOf v

/-! ### Values inside a value -/

mutual

/-- A value and all that it holds. -/
def all : Json → List Json
  | .array items => .array items :: allItems items
  | .object fields => .object fields :: allFields fields
  | v => [v]

def allItems : List Json → List Json
  | [] => []
  | v :: rest => all v ++ allItems rest

def allFields : List (String × Json) → List Json
  | [] => []
  | (_, v) :: rest => all v ++ allFields rest

end

theorem self_mem_all (v : Json) : v ∈ v.all := by
  cases v <;> simp [all]

theorem mem_allItems {items : List Json} {w : Json} :
    w ∈ allItems items ↔ ∃ v ∈ items, w ∈ v.all := by
  induction items with
  | nil => simp [allItems]
  | cons v rest ih => simp [allItems, ih]

theorem mem_allFields {fields : List (String × Json)} {w : Json} :
    w ∈ allFields fields ↔ ∃ name v, (name, v) ∈ fields ∧ w ∈ v.all := by
  induction fields with
  | nil => simp [allFields]
  | cons field rest ih =>
    obtain ⟨name, v⟩ := field
    rw [allFields, List.mem_append, ih]
    constructor
    · rintro (hw | ⟨name', v', hmem, hw⟩)
      · exact ⟨name, v, List.mem_cons_self, hw⟩
      · exact ⟨name', v', List.mem_cons_of_mem _ hmem, hw⟩
    · rintro ⟨name', v', hmem, hw⟩
      rcases List.mem_cons.mp hmem with heq | hmem
      · obtain ⟨rfl, rfl⟩ := Prod.mk.inj heq
        exact Or.inl hw
      · exact Or.inr ⟨name', v', hmem, hw⟩

theorem mem_all_item {items : List Json} {v w : Json} (hv : v ∈ items) (hw : w ∈ v.all) :
    w ∈ (array items).all := by
  rw [all]
  exact List.mem_cons_of_mem _ (mem_allItems.mpr ⟨v, hv, hw⟩)

theorem mem_all_field {fields : List (String × Json)} {name : String} {v w : Json}
    (hv : (name, v) ∈ fields) (hw : w ∈ v.all) : w ∈ (object fields).all := by
  rw [all]
  exact List.mem_cons_of_mem _ (mem_allFields.mpr ⟨name, v, hv, hw⟩)

/-- What numbers and objects are like that a reader can make: whole numbers have 64 bits, doubles
are finite, and the fields of an object are in the order of their names, without repeats. -/
def isRegularHere : Json → Prop
  | .whole n => -2 ^ 63 ≤ n ∧ n < 2 ^ 64
  | .real x => Number.isFinite x = true
  | .object fields => (fields.map Prod.fst).Pairwise (· < ·)
  | _ => True

/-- A value that a reader can make. -/
def IsRegular (v : Json) : Prop :=
  ∀ w ∈ v.all, w.isRegularHere

theorem IsRegular.here {v : Json} (h : v.IsRegular) : v.isRegularHere :=
  h v v.self_mem_all

theorem isRegular_string (s : String) : (string s).IsRegular := by
  intro w hw
  rw [List.mem_singleton.mp hw]
  trivial

theorem isRegular_whole {n : Int} (hlow : -2 ^ 63 ≤ n) (hhigh : n < 2 ^ 64) :
    (whole n).IsRegular := by
  intro w hw
  rw [List.mem_singleton.mp hw]
  exact ⟨hlow, hhigh⟩

theorem isRegular_real {x : Float} (h : Number.isFinite x = true) : (real x).IsRegular := by
  intro w hw
  rw [List.mem_singleton.mp hw]
  exact h

theorem isRegular_array_iff {items : List Json} :
    (array items).IsRegular ↔ ∀ v ∈ items, v.IsRegular := by
  constructor
  · exact fun h v hv w hw => h w (mem_all_item hv hw)
  · intro h w hw
    rw [all] at hw
    rcases List.mem_cons.mp hw with rfl | hw
    · trivial
    · obtain ⟨v, hv, hw⟩ := mem_allItems.mp hw
      exact h v hv w hw

theorem isRegular_object_iff {fields : List (String × Json)} :
    (object fields).IsRegular ↔
      (fields.map Prod.fst).Pairwise (· < ·) ∧ ∀ field ∈ fields, field.2.IsRegular := by
  constructor
  · exact fun h => ⟨h.here, fun ⟨_, _⟩ hfield w hw => h w (mem_all_field hfield hw)⟩
  · rintro ⟨horder, h⟩ w hw
    rw [all] at hw
    rcases List.mem_cons.mp hw with rfl | hw
    · exact horder
    · obtain ⟨name, v, hv, hw⟩ := mem_allFields.mp hw
      exact h (name, v) hv w hw

/-! ### Levels -/

mutual

/-- The number of arrays and objects inside one another. -/
def nesting : Json → Nat
  | .array items => nestingItems items + 1
  | .object fields => nestingFields fields + 1
  | _ => 0

def nestingItems : List Json → Nat
  | [] => 0
  | v :: rest => max (nesting v) (nestingItems rest)

def nestingFields : List (String × Json) → Nat
  | [] => 0
  | (_, v) :: rest => max (nesting v) (nestingFields rest)

end

theorem nestingItems_le_iff {items : List Json} {limit : Nat} :
    nestingItems items ≤ limit ↔ ∀ v ∈ items, v.nesting ≤ limit := by
  induction items with
  | nil => simp [nestingItems]
  | cons v rest ih => simp [nestingItems, ih]

theorem nestingFields_le_iff {fields : List (String × Json)} {limit : Nat} :
    nestingFields fields ≤ limit ↔ ∀ name v, (name, v) ∈ fields → v.nesting ≤ limit := by
  induction fields with
  | nil => simp [nestingFields]
  | cons field rest ih =>
    obtain ⟨name, v⟩ := field
    rw [nestingFields, Nat.max_le, ih]
    constructor
    · rintro ⟨hv, hrest⟩ name' v' hmem
      rcases List.mem_cons.mp hmem with heq | hmem
      · obtain ⟨rfl, rfl⟩ := Prod.mk.inj heq
        exact hv
      · exact hrest name' v' hmem
    · intro h
      exact ⟨h name v List.mem_cons_self,
        fun name' v' hmem => h name' v' (List.mem_cons_of_mem _ hmem)⟩

/-! ### Reading again -/

mutual

/-- What becomes of a value that is written and read again with so many levels. -/
def reread : Json → Nat → Except Fault Json
  | .real x, _ => rereadReal x
  | .array _, 0 => .error .tooDeep
  | .array items, limit + 1 => (rereadItems items limit).map .array
  | .object _, 0 => .error .tooDeep
  | .object fields, limit + 1 => (rereadFields fields limit).map .object
  | v, _ => .ok v

def rereadItems : List Json → Nat → Except Fault (List Json)
  | [], _ => .ok []
  | v :: rest, limit => do
    let w ← reread v limit
    let ws ← rereadItems rest limit
    pure (w :: ws)

def rereadFields : List (String × Json) → Nat → Except Fault (List (String × Json))
  | [], _ => .ok []
  | (name, v) :: rest, limit => do
    let w ← reread v limit
    let ws ← rereadFields rest limit
    pure ((name, w) :: ws)

end

theorem rereadItems_eq_self {items : List Json} {limit : Nat}
    (h : ∀ v ∈ items, v.reread limit = .ok v) : rereadItems items limit = .ok items := by
  induction items with
  | nil => rw [rereadItems]
  | cons v rest ih =>
    obtain ⟨hv, hrest⟩ := List.forall_mem_cons.mp h
    rw [rereadItems, hv, ok_bind, ih hrest]
    rfl

theorem rereadFields_eq_self {fields : List (String × Json)} {limit : Nat}
    (h : ∀ name v, (name, v) ∈ fields → v.reread limit = .ok v) :
    rereadFields fields limit = .ok fields := by
  induction fields with
  | nil => rw [rereadFields]
  | cons field rest ih =>
    obtain ⟨name, v⟩ := field
    have hrest := ih fun name' v' hmem => h name' v' (List.mem_cons_of_mem _ hmem)
    rw [rereadFields, h name v List.mem_cons_self, ok_bind, hrest]
    rfl

theorem rereadItems_error {items : List Json} {limit : Nat} {v : Json} (hv : v ∈ items)
    (h : ∃ fault, v.reread limit = .error fault) :
    ∃ fault, rereadItems items limit = .error fault := by
  induction items with
  | nil => cases hv
  | cons w rest ih =>
    rw [rereadItems]
    cases hw : w.reread limit with
    | error fault => exact ⟨fault, rfl⟩
    | ok w' =>
      rcases List.mem_cons.mp hv with rfl | hv
      · obtain ⟨fault, hfault⟩ := h
        rw [hw] at hfault
        cases hfault
      · obtain ⟨fault, hfault⟩ := ih hv
        exact ⟨fault, by rw [ok_bind, hfault]; rfl⟩

theorem rereadFields_error {fields : List (String × Json)} {limit : Nat} {name : String} {v : Json}
    (hv : (name, v) ∈ fields) (h : ∃ fault, v.reread limit = .error fault) :
    ∃ fault, rereadFields fields limit = .error fault := by
  induction fields with
  | nil => cases hv
  | cons field rest ih =>
    obtain ⟨name', w⟩ := field
    rw [rereadFields]
    cases hw : w.reread limit with
    | error fault => exact ⟨fault, rfl⟩
    | ok w' =>
      rcases List.mem_cons.mp hv with heq | hv
      · obtain ⟨rfl, rfl⟩ := Prod.mk.inj heq
        obtain ⟨fault, hfault⟩ := h
        rw [hw] at hfault
        cases hfault
      · obtain ⟨fault, hfault⟩ := ih hv
        exact ⟨fault, by rw [ok_bind, hfault]; rfl⟩

/-- The names of fields stay. -/
theorem map_fst_of_rereadFields {fields fields' : List (String × Json)} {limit : Nat}
    (h : rereadFields fields limit = .ok fields') : fields'.map Prod.fst = fields.map Prod.fst := by
  induction fields generalizing fields' with
  | nil =>
    rw [rereadFields] at h
    obtain rfl := Except.ok.inj h
    rfl
  | cons field rest ih =>
    obtain ⟨name, v⟩ := field
    rw [rereadFields] at h
    obtain ⟨w, -, h⟩ := bind_eq_ok_iff.mp h
    obtain ⟨ws, hws, h⟩ := bind_eq_ok_iff.mp h
    obtain rfl := Except.ok.inj h
    rw [List.map_cons, List.map_cons, ih hws]

/-- All doubles of a value are read back as they were. -/
def RealsReadBack (v : Json) : Prop :=
  ∀ x, .real x ∈ v.all → rereadReal x = .ok (.real x)

theorem RealsReadBack.item {items : List Json} (h : (array items).RealsReadBack) {v : Json}
    (hv : v ∈ items) : v.RealsReadBack :=
  fun x hx => h x (mem_all_item hv hx)

theorem RealsReadBack.field {fields : List (String × Json)} (h : (object fields).RealsReadBack)
    {name : String} {v : Json} (hv : (name, v) ∈ fields) : v.RealsReadBack :=
  fun x hx => h x (mem_all_field hv hx)

/-- **A value comes back as it was** if the levels suffice and its doubles come back. -/
theorem reread_eq_self {v : Json} {limit : Nat} (hnesting : v.nesting ≤ limit)
    (hreals : v.RealsReadBack) : v.reread limit = .ok v := by
  induction v using induction generalizing limit with
  | null => rw [reread] <;> simp
  | bool b => rw [reread] <;> simp
  | whole n => rw [reread] <;> simp
  | string s => rw [reread] <;> simp
  | real x =>
    rw [reread]
    exact hreals x (self_mem_all _)
  | array items ih =>
    cases limit with
    | zero => cases hnesting
    | succ limit =>
      have hitems := nestingItems_le_iff.mp (Nat.le_of_succ_le_succ hnesting)
      rw [reread, rereadItems_eq_self fun v hv => ih v hv (hitems v hv) (hreals.item hv)]
      rfl
  | object fields ih =>
    cases limit with
    | zero => cases hnesting
    | succ limit =>
      have hfields := nestingFields_le_iff.mp (Nat.le_of_succ_le_succ hnesting)
      rw [reread, rereadFields_eq_self fun name v hv =>
        ih name v hv (hfields name v hv) (hreals.field hv)]
      rfl

/-- **A value that is nested deeper than the levels is lost.** -/
theorem exists_reread_error {v : Json} {limit : Nat} (h : limit < v.nesting) :
    ∃ fault, v.reread limit = .error fault := by
  induction v using induction generalizing limit with
  | null => cases h
  | bool b => cases h
  | whole n => cases h
  | string s => cases h
  | real x => cases h
  | array items ih =>
    cases limit with
    | zero => exact ⟨.tooDeep, by rw [reread]⟩
    | succ limit =>
      have hdeep : ¬ nestingItems items ≤ limit := Nat.not_le_of_lt (Nat.lt_of_succ_lt_succ h)
      rw [nestingItems_le_iff] at hdeep
      push Not at hdeep
      obtain ⟨v, hv, hdeep⟩ := hdeep
      obtain ⟨fault, hfault⟩ := rereadItems_error hv (ih v hv hdeep)
      exact ⟨fault, by rw [reread, hfault]; rfl⟩
  | object fields ih =>
    cases limit with
    | zero => exact ⟨.tooDeep, by rw [reread]⟩
    | succ limit =>
      have hdeep : ¬ nestingFields fields ≤ limit := Nat.not_le_of_lt (Nat.lt_of_succ_lt_succ h)
      rw [nestingFields_le_iff] at hdeep
      push Not at hdeep
      obtain ⟨name, v, hv, hdeep⟩ := hdeep
      obtain ⟨fault, hfault⟩ := rereadFields_error hv (ih name v hv hdeep)
      exact ⟨fault, by rw [reread, hfault]; rfl⟩

end ScreenInspector.Json
