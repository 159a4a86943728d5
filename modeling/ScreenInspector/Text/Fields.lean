/-
  ScreenInspector/Text/Fields.lean
  ================================
  **Named values in the order of their names.**

  A list of pairs of a name and a value.  `insert` keeps such a list sorted and gives every name
  one value, the last that was inserted; look-ups are core's `List.lookup`.
-/

namespace ScreenInspector

/-- Values by name. -/
abbrev Fields (α : Type) := List (String × α)

namespace Fields

variable {α : Type}

/-- Sets the value of a name in a sorted list of fields. -/
def insert (name : String) (value : α) : Fields α → Fields α
  | [] => [(name, value)]
  | (key, old) :: rest =>
    if name = key then (name, value) :: rest
    else if name < key then (name, value) :: (key, old) :: rest
    else (key, old) :: insert name value rest

/-- The sorted fields of a list of pairs; of two pairs with one name the later counts. -/
def ofPairs (pairs : List (String × α)) : Fields α :=
  pairs.foldl (fun fields p => fields.insert p.1 p.2) []

end Fields

end ScreenInspector
