/-!
# Maps in the order of their keys

A map from strings is a list of its entries in ascending order of their keys by code
point, each key once. `Ordered.insert` keeps that order.
-/

namespace Deckwright

/-- A map from strings, as the list of its entries in the order of their keys. -/
abbrev Ordered (α : Type) := List (String × α)

namespace Ordered

variable {α : Type}

/-- The value of a key. -/
def get? (key : String) (map : Ordered α) : Option α :=
  map.lookup key

/-- Whether a key has a value. -/
def has (key : String) (map : Ordered α) : Bool :=
  (map.get? key).isSome

/-- The map with one more entry, in its place; it takes the place of an entry with the same key. -/
def insert (key : String) (value : α) : Ordered α → Ordered α
  | [] => [(key, value)]
  | (k, v) :: rest =>
    if key < k then (key, value) :: (k, v) :: rest
    else if key = k then (key, value) :: rest
    else (k, v) :: insert key value rest

/-- The map without the entry of a key. -/
def erase (key : String) (map : Ordered α) : Ordered α :=
  map.filter fun entry => entry.1 != key

/-- The map with entries added in order; a later value takes the place of an earlier one. -/
def update (map : Ordered α) (entries : List (String × α)) : Ordered α :=
  entries.foldl (fun all entry => all.insert entry.1 entry.2) map

/-- The map of entries listed in any order; of two with one key the later one counts. -/
def ofList (entries : List (String × α)) : Ordered α :=
  update [] entries

end Ordered

end Deckwright
