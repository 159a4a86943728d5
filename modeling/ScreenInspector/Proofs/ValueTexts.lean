/-
  ScreenInspector/Proofs/ValueTexts.lean
  ======================================
  **Reading what was written.**

  A reader takes the text of a value, and nothing behind it, provided that no number could go on
  there.  Strings come back character by character (`stringBody_written`), numbers by their parts
  (`number_written`), and items and fields one after the other, each with the reader for one level
  less (`itemsLoop_written`, `fieldsLoop_written`).  By induction on the value, the result is the
  value as it is reread (`value_render`); so is that of the whole text (`read_render`).
-/
import ScreenInspector.Proofs.RereadValues

namespace ScreenInspector

/-! ### Fields -/

theorem Fields.insert_append {α : Type} {name : String} {value : α} {fields : Fields α}
    (h : ∀ key ∈ fields.map Prod.fst, key < name) :
    Fields.insert name value fields = fields ++ [(name, value)] := by
  induction fields with
  | nil => rfl
  | cons field rest ih =>
    obtain ⟨key, old⟩ := field
    obtain ⟨hkey, hrest⟩ := List.forall_mem_cons.mp h
    have hne : name ≠ key := fun heq => String.lt_irrefl key (heq ▸ hkey)
    have hnot : ¬ name < key := String.lt_asymm hkey
    rw [Fields.insert, if_neg hne, if_neg hnot, ih hrest]
    rfl

/-- Fields that are in order stay as they are. -/
theorem Fields.ofPairs_eq_self {α : Type} {pairs : List (String × α)}
    (h : (pairs.map Prod.fst).Pairwise (· < ·)) : Fields.ofPairs pairs = pairs := by
  have hfold : ∀ before : List (String × α), ((before ++ pairs).map Prod.fst).Pairwise (· < ·) →
      pairs.foldl (fun fields p => Fields.insert p.1 p.2 fields) before = before ++ pairs := by
    clear h
    induction pairs with
    | nil => simp
    | cons p rest ih =>
      intro before h
      have hbefore : ∀ key ∈ before.map Prod.fst, key < p.1 := by
        rw [List.map_append, List.pairwise_append] at h
        exact fun key hkey => h.2.2 key hkey p.1 (by simp)
      rw [List.foldl_cons, Fields.insert_append hbefore, ih]
      · simp
      · simpa using h
  exact hfold [] h

namespace Json

/-! ### Strings -/

theorem hexValue?_hexDigit {n : Nat} (h : n < 16) : hexValue? (hexDigit n) = some n := by
  interval_cases n <;> rfl

theorem hexQuad?_of_control {n : Nat} (h : n < 0x20) :
    hexQuad? '0' '0' (hexDigit (n / 16)) (hexDigit (n % 16)) = some n := by
  have hhigh := hexValue?_hexDigit (show n / 16 < 16 by omega)
  have hlow := hexValue?_hexDigit (show n % 16 < 16 by omega)
  have hzero : hexValue? '0' = some 0 := rfl
  simp only [hexQuad?, hhigh, hlow, hzero, Option.bind_eq_bind, Option.bind_some, Option.pure_def,
    Option.some.injEq]
  omega

/-- A character is written with one letter, by its number, or as it is. -/
theorem escapedChar_cases (c : Char) :
    (∃ e, escapedChar c = ['\\', e] ∧ e ≠ 'u' ∧ shortEscape? e = some c) ∨
    (c.toNat < 0x20 ∧ escapedChar c =
      ['\\', 'u', '0', '0', hexDigit (c.toNat / 16), hexDigit (c.toNat % 16)]) ∨
    (escapedChar c = [c] ∧ c ≠ '\x22' ∧ c ≠ '\\' ∧ ¬ c.toNat < 0x20) := by
  rw [escapedChar]
  split_ifs with hquote hbackslash hback htab hline hfeed hreturn hcontrol
  · exact Or.inl ⟨_, rfl, by decide, by rw [hquote]; rfl⟩
  · exact Or.inl ⟨_, rfl, by decide, by rw [hbackslash]; rfl⟩
  · exact Or.inl ⟨_, rfl, by decide, by rw [hback]; rfl⟩
  · exact Or.inl ⟨_, rfl, by decide, by rw [htab]; rfl⟩
  · exact Or.inl ⟨_, rfl, by decide, by rw [hline]; rfl⟩
  · exact Or.inl ⟨_, rfl, by decide, by rw [hfeed]; rfl⟩
  · exact Or.inl ⟨_, rfl, by decide, by rw [hreturn]; rfl⟩
  · exact Or.inr (Or.inl ⟨hcontrol, rfl⟩)
  · exact Or.inr (Or.inr ⟨rfl, hquote, hbackslash, hcontrol⟩)

/-- A character that is written in a string is the next that is read. -/
theorem stringBody_escapedChar {c : Char} {cs rest after : List Char}
    (h : stringBody rest = .ok (cs, after)) :
    stringBody (escapedChar c ++ rest) = .ok (c :: cs, after) := by
  rcases escapedChar_cases c with ⟨e, hc, hletter, he⟩ | ⟨hcontrol, hc⟩ |
    ⟨hc, hquote, hbackslash, hplain⟩
  · rw [hc, List.cons_append, List.singleton_append, stringBody]
    · simp only [he, h, ok_bind]
      rfl
    · exact fun _ _ _ _ _ hu _ => hletter hu
  · have hcode := hexQuad?_of_control hcontrol
    have hnone : ¬ (0xDC00 ≤ c.toNat ∧ c.toNat ≤ 0xDFFF) ∧
        ¬ (0xD800 ≤ c.toNat ∧ c.toNat < 0xDC00) := by omega
    rw [hc]
    simp only [List.cons_append, List.nil_append]
    rw [stringBody]
    simp only [hcode, if_neg hnone.1, if_neg hnone.2, h, ok_bind, Char.ofNat_toNat]
    rfl
  · rw [hc, List.singleton_append, stringBody, if_neg hplain, h]
    · rfl
    · exact hquote
    · exact fun _ _ _ _ _ heq _ => hbackslash heq
    · exact fun _ _ heq _ => hbackslash heq

theorem stringBody_written (cs rest : List Char) :
    stringBody (cs.flatMap escapedChar ++ '\x22' :: rest) = .ok (cs, rest) := by
  induction cs with
  | nil => rfl
  | cons c cs ih =>
    rw [List.flatMap_cons, List.append_assoc]
    exact stringBody_escapedChar ih

/-! ### The start of a text -/

/-- A text that begins with no blank and no end of an array or an object. -/
def BeginsValue (text : List Char) : Prop :=
  ∃ c more, text = c :: more ∧ isGap c = false ∧ c ≠ ']' ∧ c ≠ '\x7d'

theorem skipGap_of_begins {text : List Char} (h : BeginsValue text) (rest : List Char) :
    skipGap (text ++ rest) = text ++ rest := by
  obtain ⟨c, more, rfl, hgap, -⟩ := h
  rw [skipGap, List.cons_append, List.dropWhile_cons_of_neg (by simp [hgap])]

/-- A number begins with a sign or a digit. -/
theorem NumberText.IsProper.head_chars {t : NumberText} (h : t.IsProper) :
    ∃ c more, t.chars = c :: more ∧ (c = '-' ∨ c.isDigit = true) := by
  rw [NumberText.chars]
  cases t.negative with
  | true => exact ⟨_, _, rfl, Or.inl rfl⟩
  | false =>
    obtain ⟨c, more, hwhole⟩ := List.exists_cons_of_ne_nil h.whole.ne_nil
    have hdigit := h.whole.digits c (by rw [hwhole]; exact List.mem_cons_self)
    exact ⟨c, _, by rw [hwhole]; rfl, Or.inr hdigit⟩

theorem ne_of_sign_or_digit {c d : Char} (h : c = '-' ∨ c.isDigit = true) (hd : d ≠ '-')
    (hdigit : d.isDigit = false) : c ≠ d := by
  rintro rfl
  rcases h with h | h
  · exact hd h
  · rw [hdigit] at h
    cases h

theorem beginsValue_of_digit {c : Char} (h : c = '-' ∨ c.isDigit = true) (more : List Char) :
    BeginsValue (c :: more) := by
  refine ⟨c, more, rfl, ?_, ne_of_sign_or_digit h (by decide) rfl,
    ne_of_sign_or_digit h (by decide) rfl⟩
  have hspace : c ≠ ' ' := ne_of_sign_or_digit h (by decide) rfl
  have hline : c ≠ '\n' := ne_of_sign_or_digit h (by decide) rfl
  have htab : c ≠ '\t' := ne_of_sign_or_digit h (by decide) rfl
  have hreturn : c ≠ '\r' := ne_of_sign_or_digit h (by decide) rfl
  simp [isGap, hspace, hline, htab, hreturn]

theorem valueWith_of_digit {c : Char} (h : c = '-' ∨ c.isDigit = true) (most : Nat)
    (item : Option (Reader Json)) (more : List Char) :
    valueWith most item (c :: more) = number (c :: more) := by
  have hquote : c ≠ '\x22' := ne_of_sign_or_digit h (by decide) rfl
  have hnull : c ≠ 'n' := ne_of_sign_or_digit h (by decide) rfl
  have htrue : c ≠ 't' := ne_of_sign_or_digit h (by decide) rfl
  have hfalse : c ≠ 'f' := ne_of_sign_or_digit h (by decide) rfl
  simp only [valueWith, hquote, hnull, htrue, hfalse, if_false]
  rw [if_pos (by simpa using h)]

theorem beginsValue_render {v : Json} (h : v.IsRegular) : BeginsValue v.render.toList := by
  cases v with
  | null => exact ⟨_, _, rfl, by decide⟩
  | bool b => cases b <;> exact ⟨_, _, rfl, by decide⟩
  | whole n =>
    obtain ⟨c, more, hc, hdigit⟩ := (NumberText.isProper_ofInt n).head_chars
    rw [render, ← NumberText.chars_ofInt, hc]
    exact beginsValue_of_digit hdigit more
  | real x =>
    obtain ⟨c, more, hc, hdigit⟩ := (NumberText.isProper_ofReal x).head_chars
    rw [render, ← chars_ofReal h.here, hc]
    exact beginsValue_of_digit hdigit more
  | string s => exact ⟨'\x22', _, by rw [render, renderString, String.toList_ofList], by decide⟩
  | array items => exact ⟨'[', _, by simp [render]; rfl, by decide⟩
  | object fields => exact ⟨'\x7b', _, by simp [render]; rfl, by decide⟩

/-! ### Items and fields -/

theorem renderItems_cons (v : Json) {items : List Json} (h : items ≠ []) :
    (renderItems (v :: items)).toList = v.render.toList ++ ',' :: (renderItems items).toList := by
  obtain ⟨w, rest, rfl⟩ := List.exists_cons_of_ne_nil h
  simp [renderItems]

theorem beginsValue_renderItems {items : List Json} (h : items ≠ [])
    (hitems : ∀ v ∈ items, BeginsValue v.render.toList) :
    BeginsValue (renderItems items).toList := by
  obtain ⟨v, rest, rfl⟩ := List.exists_cons_of_ne_nil h
  obtain ⟨c, more, hc, hbegins⟩ := hitems v List.mem_cons_self
  rcases List.eq_nil_or_concat rest with rfl | hrest
  · exact ⟨c, more, by rw [renderItems, hc], hbegins⟩
  · have hne : rest ≠ [] := by
      obtain ⟨_, _, rfl⟩ := hrest
      simp
    exact ⟨c, _, by rw [renderItems_cons v hne, hc]; rfl, hbegins⟩

theorem endsNumber_of_ne {c : Char} (h : c.isDigit = false ∧ c ≠ '.' ∧ c ≠ 'e' ∧ c ≠ 'E')
    (more : List Char) : EndsNumber (c :: more) := by
  intro c' more' heq
  obtain ⟨rfl, rfl⟩ := List.cons.inj heq
  exact h

/-- **Items are read one after the other.** -/
theorem itemsLoop_written {item : Reader Json} {limit : Nat} {items : List Json} (hne : items ≠ [])
    (hbegins : ∀ v ∈ items, BeginsValue v.render.toList)
    (hitem : ∀ v ∈ items, ∀ rest, EndsNumber rest →
      item (v.render.toList ++ rest) = (v.reread limit).map fun w => (w, rest))
    {fuel : Nat} (hfuel : items.length ≤ fuel) (rest : List Char) :
    itemsLoop item fuel ((renderItems items).toList ++ ']' :: rest) =
      (rereadItems items limit).map fun ws => (ws, rest) := by
  induction items generalizing fuel with
  | nil => exact absurd rfl hne
  | cons v items ih =>
    obtain ⟨fuel, rfl⟩ := Nat.exists_eq_add_of_le' (Nat.lt_of_lt_of_le (Nat.succ_pos _) hfuel)
    obtain ⟨hv, hitems⟩ := List.forall_mem_cons.mp hitem
    obtain ⟨-, hbegins⟩ := List.forall_mem_cons.mp hbegins
    by_cases hlast : items = []
    · subst hlast
      have hclose : EndsNumber (']' :: rest) := endsNumber_of_ne (by decide) rest
      rw [renderItems, itemsLoop, hv _ hclose, rereadItems]
      cases v.reread limit with
      | error fault => rfl
      | ok w => rfl
    · have hcomma : ∀ more, EndsNumber (',' :: more) := endsNumber_of_ne (by decide)
      rw [renderItems_cons v hlast, List.append_assoc, List.cons_append, itemsLoop,
        hv _ (hcomma _), rereadItems]
      cases v.reread limit with
      | error fault => rfl
      | ok w =>
        have hnext := ih hlast hbegins hitems (Nat.le_of_succ_le_succ hfuel)
        have hskip := skipGap_of_begins (beginsValue_renderItems hlast hbegins) (']' :: rest)
        have hcommaSkip : ∀ more, skipGap (',' :: more) = ',' :: more := fun _ => rfl
        simp only [map_ok, ok_bind, hcommaSkip, hskip, hnext]
        cases rereadItems items limit with
        | error fault => rfl
        | ok ws => rfl

/-- The text of a field behind its first quote. -/
def fieldTail (name : String) (v : Json) : List Char :=
  name.toList.flatMap escapedChar ++ '\x22' :: ':' :: v.render.toList

theorem renderFields_singleton (name : String) (v : Json) :
    (renderFields [(name, v)]).toList = '\x22' :: fieldTail name v := by
  simp [renderFields, renderString, fieldTail]

theorem renderFields_cons (name : String) (v : Json) {fields : List (String × Json)}
    (h : fields ≠ []) : (renderFields ((name, v) :: fields)).toList =
      '\x22' :: (fieldTail name v ++ ',' :: (renderFields fields).toList) := by
  obtain ⟨field, rest, rfl⟩ := List.exists_cons_of_ne_nil h
  simp [renderFields, renderString, fieldTail]

theorem beginsValue_renderFields {fields : List (String × Json)} (h : fields ≠ []) :
    BeginsValue (renderFields fields).toList := by
  obtain ⟨⟨name, v⟩, rest, rfl⟩ := List.exists_cons_of_ne_nil h
  by_cases hlast : rest = []
  · subst hlast
    exact ⟨_, _, renderFields_singleton name v, by decide⟩
  · exact ⟨_, _, renderFields_cons name v hlast, by decide⟩

/-- The name and the value of a field are read, up to what stands behind them. -/
theorem fieldsLoop_tail {item : Reader Json} {limit fuel : Nat} {name : String} {v : Json}
    (hbegins : BeginsValue v.render.toList)
    (hitem : ∀ rest, EndsNumber rest →
      item (v.render.toList ++ rest) = (v.reread limit).map fun w => (w, rest))
    {rest : List Char} (hrest : EndsNumber rest) :
    fieldsLoop item (fuel + 1) ('\x22' :: (fieldTail name v ++ rest)) = (do
      let w ← v.reread limit
      match skipGap rest with
      | ',' :: rest =>
        let (fields, rest) ← fieldsLoop item fuel (skipGap rest)
        pure ((name, w) :: fields, rest)
      | '\x7d' :: rest => pure ([(name, w)], rest)
      | other => .error (unexpectedAt other)) := by
  have hcolon : ∀ more, skipGap (':' :: more) = ':' :: more := fun _ => rfl
  have hexpect : ∀ more, expectChars [':'] (':' :: more) = .ok more := fun _ => rfl
  rw [fieldTail, fieldsLoop]
  simp only [List.append_assoc, List.cons_append, stringBody_written, ok_bind, hcolon, hexpect,
    skipGap_of_begins hbegins, hitem rest hrest, String.ofList_toList]
  cases v.reread limit with
  | error fault => rfl
  | ok w => rfl

/-- **Fields are read one after the other.** -/
theorem fieldsLoop_written {item : Reader Json} {limit : Nat} {fields : List (String × Json)}
    (hne : fields ≠ []) (hbegins : ∀ name v, (name, v) ∈ fields → BeginsValue v.render.toList)
    (hitem : ∀ name v, (name, v) ∈ fields → ∀ rest, EndsNumber rest →
      item (v.render.toList ++ rest) = (v.reread limit).map fun w => (w, rest))
    {fuel : Nat} (hfuel : fields.length ≤ fuel) (rest : List Char) :
    fieldsLoop item fuel ((renderFields fields).toList ++ '\x7d' :: rest) =
      (rereadFields fields limit).map fun ws => (ws, rest) := by
  induction fields generalizing fuel with
  | nil => exact absurd rfl hne
  | cons field fields ih =>
    obtain ⟨name, v⟩ := field
    obtain ⟨fuel, rfl⟩ := Nat.exists_eq_add_of_le' (Nat.lt_of_lt_of_le (Nat.succ_pos _) hfuel)
    have hv := hitem name v List.mem_cons_self
    have hbegin := hbegins name v List.mem_cons_self
    by_cases hlast : fields = []
    · subst hlast
      have hclose : EndsNumber ('\x7d' :: rest) := endsNumber_of_ne (by decide) rest
      rw [renderFields_singleton, List.cons_append, fieldsLoop_tail hbegin hv hclose, rereadFields]
      cases v.reread limit with
      | error fault => rfl
      | ok w => rfl
    · have hcomma : ∀ more, EndsNumber (',' :: more) := endsNumber_of_ne (by decide)
      have hnext := ih hlast (fun name v h => hbegins name v (List.mem_cons_of_mem _ h))
        (fun name v h => hitem name v (List.mem_cons_of_mem _ h)) (Nat.le_of_succ_le_succ hfuel)
      have hskip := skipGap_of_begins (beginsValue_renderFields hlast) ('\x7d' :: rest)
      have hcommaSkip : ∀ more, skipGap (',' :: more) = ',' :: more := fun _ => rfl
      rw [renderFields_cons name v hlast, List.cons_append, List.append_assoc, List.cons_append,
        fieldsLoop_tail hbegin hv (hcomma _), rereadFields]
      cases v.reread limit with
      | error fault => rfl
      | ok w =>
        simp only [ok_bind, hcommaSkip, hskip, hnext]
        cases rereadFields fields limit with
        | error fault => rfl
        | ok ws => rfl

/-! ### Values -/

theorem length_item_le {items : List Json} {v : Json} (hv : v ∈ items) :
    v.render.toList.length ≤ (renderItems items).toList.length := by
  induction items with
  | nil => cases hv
  | cons w rest ih =>
    by_cases hlast : rest = []
    · subst hlast
      rw [List.mem_singleton.mp hv, renderItems]
    · rw [renderItems_cons w hlast, List.length_append, List.length_cons]
      rcases List.mem_cons.mp hv with rfl | hv
      · omega
      · have := ih hv
        omega

theorem length_items_le {items : List Json} (h : ∀ v ∈ items, BeginsValue v.render.toList) :
    items.length ≤ (renderItems items).toList.length := by
  induction items with
  | nil => exact Nat.zero_le _
  | cons v rest ih =>
    obtain ⟨hv, hrest⟩ := List.forall_mem_cons.mp h
    have hpos : 0 < v.render.toList.length := by
      obtain ⟨c, more, hc, -⟩ := hv
      simp [hc]
    by_cases hlast : rest = []
    · subst hlast
      rw [renderItems]
      exact hpos
    · have := ih hrest
      rw [renderItems_cons v hlast, List.length_append, List.length_cons, List.length_cons]
      omega

theorem length_field_le {fields : List (String × Json)} {name : String} {v : Json}
    (hv : (name, v) ∈ fields) :
    v.render.toList.length ≤ (renderFields fields).toList.length := by
  have htail : ∀ name v, v.render.toList.length ≤ (fieldTail name v).length := by
    intro name v
    rw [fieldTail, List.length_append, List.length_cons, List.length_cons]
    omega
  induction fields with
  | nil => cases hv
  | cons field rest ih =>
    obtain ⟨name', w⟩ := field
    have hw := htail name' w
    by_cases hlast : rest = []
    · subst hlast
      obtain ⟨rfl, rfl⟩ := Prod.mk.inj (List.mem_singleton.mp hv)
      rw [renderFields_singleton, List.length_cons]
      omega
    · rw [renderFields_cons name' w hlast, List.length_cons, List.length_append, List.length_cons]
      rcases List.mem_cons.mp hv with heq | hv
      · obtain ⟨rfl, rfl⟩ := Prod.mk.inj heq
        omega
      · have := ih hv
        omega

theorem length_fields_le (fields : List (String × Json)) :
    fields.length ≤ (renderFields fields).toList.length := by
  induction fields with
  | nil => exact Nat.zero_le _
  | cons field rest ih =>
    obtain ⟨name, v⟩ := field
    by_cases hlast : rest = []
    · subst hlast
      rw [renderFields_singleton]
      exact Nat.succ_le_succ (Nat.zero_le _)
    · rw [renderFields_cons name v hlast, List.length_cons, List.length_cons, List.length_append,
        List.length_cons]
      omega

theorem exists_valueWith (most limit : Nat) : ∃ item, value most limit = valueWith most item := by
  cases limit with
  | zero => exact ⟨none, rfl⟩
  | succ limit => exact ⟨some (value most limit), rfl⟩

theorem toList_render_array (items : List Json) :
    (render (array items)).toList = '[' :: ((renderItems items).toList ++ [']']) := by
  simp [render]

theorem toList_render_object (fields : List (String × Json)) :
    (render (object fields)).toList = '\x7b' :: ((renderFields fields).toList ++ ['\x7d']) := by
  simp [render]

theorem valueWith_array {item : Reader Json} {items : List Json}
    (hempty : items ≠ []) (hbegins : ∀ v ∈ items, BeginsValue v.render.toList) (most : Nat)
    (rest : List Char) :
    valueWith most (some item) ('[' :: ((renderItems items).toList ++ ']' :: rest)) =
      (itemsLoop item most ((renderItems items).toList ++ ']' :: rest)).map
        fun (vs, after) => (.array vs, after) := by
  have hbegin := beginsValue_renderItems hempty hbegins
  have hskip := skipGap_of_begins hbegin (']' :: rest)
  obtain ⟨c, more, hc, -, hclose, -⟩ := hbegin
  rw [hc, List.cons_append] at hskip ⊢
  simp [valueWith, hskip, hclose]

/-- The items of an array are read with a level less. -/
theorem value_array {most limit : Nat} {items : List Json}
    (hbegins : ∀ v ∈ items, BeginsValue v.render.toList)
    (hitem : ∀ v ∈ items, ∀ rest, EndsNumber rest →
      value most limit (v.render.toList ++ rest) = (v.reread limit).map fun w => (w, rest))
    (hmost : items.length ≤ most) (rest : List Char) :
    value most (limit + 1) ((render (array items)).toList ++ rest) =
      ((array items).reread (limit + 1)).map fun w => (w, rest) := by
  rw [toList_render_array, List.cons_append, List.append_assoc, List.singleton_append, value,
    reread]
  by_cases hempty : items = []
  · subst hempty
    rfl
  · rw [valueWith_array hempty hbegins, itemsLoop_written hempty hbegins hitem hmost rest]
    cases rereadItems items limit with
    | error fault => rfl
    | ok ws => rfl

theorem valueWith_object {item : Reader Json}
    {fields : List (String × Json)} (hempty : fields ≠ []) (most : Nat) (rest : List Char) :
    valueWith most (some item) ('\x7b' :: ((renderFields fields).toList ++ '\x7d' :: rest)) =
      (fieldsLoop item most ((renderFields fields).toList ++ '\x7d' :: rest)).map
        fun (fields, after) => (ofPairs fields, after) := by
  have hbegin := beginsValue_renderFields hempty
  have hskip := skipGap_of_begins hbegin ('\x7d' :: rest)
  obtain ⟨c, more, hc, -, -, hclose⟩ := hbegin
  rw [hc, List.cons_append] at hskip ⊢
  simp [valueWith, hskip, hclose]

/-- The fields of an object are read with a level less. -/
theorem value_object {most limit : Nat} {fields : List (String × Json)}
    (hbegins : ∀ name v, (name, v) ∈ fields → BeginsValue v.render.toList)
    (hitem : ∀ name v, (name, v) ∈ fields → ∀ rest, EndsNumber rest →
      value most limit (v.render.toList ++ rest) = (v.reread limit).map fun w => (w, rest))
    (horder : (fields.map Prod.fst).Pairwise (· < ·)) (hmost : fields.length ≤ most)
    (rest : List Char) :
    value most (limit + 1) ((render (object fields)).toList ++ rest) =
      ((object fields).reread (limit + 1)).map fun w => (w, rest) := by
  rw [toList_render_object, List.cons_append, List.append_assoc, List.singleton_append, value,
    reread]
  by_cases hempty : fields = []
  · subst hempty
    rfl
  · rw [valueWith_object hempty, fieldsLoop_written hempty hbegins hitem hmost rest]
    cases hfields : rereadFields fields limit with
    | error fault => rfl
    | ok ws =>
      -- The fields that were read are in order, so that collecting them changes nothing.
      have hsorted : (ws.map Prod.fst).Pairwise (· < ·) := by
        rwa [map_fst_of_rereadFields hfields]
      simp only [map_ok, ofPairs, Fields.ofPairs_eq_self hsorted]

theorem value_tooDeep (most : Nat) {c : Char} (h : c = '[' ∨ c = '\x7b') (rest : List Char) :
    value most 0 (c :: rest) = .error .tooDeep := by
  rcases h with rfl | rfl <;> rfl

/-- **A value is read as it is reread**, whatever stands behind it. -/
theorem value_render {v : Json} (h : v.IsRegular) {most : Nat}
    (hmost : v.render.toList.length ≤ most) (limit : Nat) {rest : List Char}
    (hrest : EndsNumber rest) :
    value most limit (v.render.toList ++ rest) = (v.reread limit).map fun w => (w, rest) := by
  -- The levels are general, as there is one less for what an array or an object holds; so is the
  -- rest, as a comma or a closing sign follows there.
  induction v using induction generalizing limit rest with
  | null =>
    obtain ⟨item, hitem⟩ := exists_valueWith most limit
    rw [hitem, reread] <;> simp [render, valueWith, expectChars]
  | bool b =>
    obtain ⟨item, hitem⟩ := exists_valueWith most limit
    cases b <;> (rw [hitem, reread] <;> simp [render, valueWith, expectChars])
  | whole n =>
    obtain ⟨item, hitem⟩ := exists_valueWith most limit
    obtain ⟨c, more, hc, hdigit⟩ := (NumberText.isProper_ofInt n).head_chars
    have hread := number_toString h.here.1 h.here.2 hrest
    rw [← NumberText.chars_ofInt, hc] at hread
    rw [hitem, render, ← NumberText.chars_ofInt, hc, List.cons_append, valueWith_of_digit hdigit,
      ← List.cons_append, hread, reread] <;> simp
  | real x =>
    obtain ⟨item, hitem⟩ := exists_valueWith most limit
    obtain ⟨c, more, hc, hdigit⟩ := (NumberText.isProper_ofReal x).head_chars
    have hread := number_renderReal h.here hrest
    rw [← chars_ofReal h.here, hc] at hread
    rw [hitem, render, ← chars_ofReal h.here, hc, List.cons_append, valueWith_of_digit hdigit,
      ← List.cons_append, hread, reread]
  | string s =>
    obtain ⟨item, hitem⟩ := exists_valueWith most limit
    rw [hitem, render, renderString, String.toList_ofList, List.cons_append, List.append_assoc,
      List.singleton_append, reread] <;> simp [valueWith, stringBody_written]
  | array items ih =>
    cases limit with
    | zero =>
      rw [toList_render_array, List.cons_append, value_tooDeep most (Or.inl rfl), reread]
      rfl
    | succ limit =>
      rw [toList_render_array, List.length_cons, List.length_append] at hmost
      have hitems := isRegular_array_iff.mp h
      have hbegins : ∀ v ∈ items, BeginsValue v.render.toList :=
        fun v hv => beginsValue_render (hitems v hv)
      have hlength := length_items_le hbegins
      apply value_array hbegins _ (by omega)
      intro v hv rest hrest
      have hitem := length_item_le hv
      exact ih v hv (hitems v hv) (by omega) limit hrest
  | object fields ih =>
    cases limit with
    | zero =>
      rw [toList_render_object, List.cons_append, value_tooDeep most (Or.inr rfl), reread]
      rfl
    | succ limit =>
      rw [toList_render_object, List.length_cons, List.length_append] at hmost
      obtain ⟨horder, hfields⟩ := isRegular_object_iff.mp h
      have hbegins : ∀ name v, (name, v) ∈ fields → BeginsValue v.render.toList :=
        fun name v hv => beginsValue_render (hfields (name, v) hv)
      have hlength := length_fields_le fields
      apply value_object hbegins _ horder (by omega)
      intro name v hv rest hrest
      have hfield := length_field_le hv
      exact ih name v hv (hfields (name, v) hv) (by omega) limit hrest

/-- **What reading a written value gives.** -/
theorem read_render {v : Json} (h : v.IsRegular) (limit : Nat) :
    read limit v.render = v.reread limit := by
  have hvalue := value_render h (Nat.le_refl _) limit endsNumber_nil
  have hskip := skipGap_of_begins (beginsValue_render h) []
  rw [List.append_nil] at hvalue hskip
  simp only [read, hskip, hvalue]
  cases v.reread limit with
  | error fault => rfl
  | ok w => rfl

end Json

end ScreenInspector
