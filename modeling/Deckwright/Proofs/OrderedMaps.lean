import Mathlib.Data.List.Nodup
import Mathlib.Data.String.Basic
import Deckwright.Ordered

/-!
# Maps in the order of their keys

`Ordered.insert` changes the value of one key and nothing else, whatever list it is given, and it
keeps keys that ascend in that order (`Sorted`). So a map that is made by inserting entries is
sorted, and the last entry of a key is its value (`get?_ofList`). A sorted map is determined by the
values of its keys (`Sorted.ext`), so an equation between maps is one between look-ups.
-/

namespace Deckwright.Ordered

variable {α : Type} {key : String} {map : Ordered α}

/-- The keys of the map ascend, so there is one entry for each of them. -/
def Sorted (map : Ordered α) : Prop :=
  map.Pairwise fun entry next => entry.1 < next.1

instance (map : Ordered α) : Decidable (Sorted map) :=
  inferInstanceAs (Decidable (List.Pairwise _ map))

theorem get?_nil (key : String) : get? key ([] : Ordered α) = none := rfl

theorem get?_cons (key k : String) (v : α) (rest : Ordered α) :
    get? key ((k, v) :: rest) = if key = k then some v else get? key rest := by
  rw [get?, get?, List.lookup_cons]
  split <;> simp_all

/-- An entry that is put in changes what its key has, and no other key. -/
theorem get?_insert (key other : String) (value : α) (map : Ordered α) :
    (map.insert key value).get? other = if other = key then some value else map.get? other := by
  induction map with
  | nil => rw [insert, get?_cons]
  | cons entry rest ih =>
      obtain ⟨k, v⟩ := entry
      rw [insert]
      split
      · rw [get?_cons]
      · split
        · rename_i hKey
          rw [get?_cons, get?_cons, hKey]
          split <;> rfl
        · rename_i hKey
          rw [get?_cons, ih, get?_cons]
          split
          · rename_i hOther
            rw [if_neg]
            rintro rfl
            exact hKey hOther
          · rfl

theorem mem_insert {key : String} {value : α} {map : Ordered α} {entry : String × α}
    (h : entry ∈ map.insert key value) : entry = (key, value) ∨ entry ∈ map := by
  induction map with
  | nil => exact .inl (List.mem_singleton.1 h)
  | cons first rest ih =>
      obtain ⟨k, v⟩ := first
      rw [insert] at h
      split at h
      · exact List.mem_cons.1 h
      · split at h
        · exact (List.mem_cons.1 h).imp_right (List.mem_cons_of_mem _)
        · rcases List.mem_cons.1 h with rfl | hRest
          · exact .inr List.mem_cons_self
          · exact (ih hRest).imp_right (List.mem_cons_of_mem _)

theorem Sorted.insert (h : Sorted map) (key : String) (value : α) :
    Sorted (map.insert key value) := by
  induction map with
  | nil => exact List.pairwise_singleton _ _
  | cons first rest ih =>
      obtain ⟨k, v⟩ := first
      obtain ⟨hFirst, hRest⟩ := List.pairwise_cons.1 h
      rw [Ordered.insert]
      split
      · rename_i hLess
        refine List.pairwise_cons.2 ⟨fun next hMem => ?_, h⟩
        rcases List.mem_cons.1 hMem with rfl | hLater
        · exact hLess
        · exact String.lt_trans hLess (hFirst next hLater)
      · split
        · rename_i hKey
          subst hKey
          exact List.pairwise_cons.2 ⟨hFirst, hRest⟩
        · rename_i hNotLess hKey
          have hGreater : k < key := Std.lt_of_le_of_ne hNotLess (Ne.symm hKey)
          refine List.pairwise_cons.2 ⟨fun next hMem => ?_, ih hRest⟩
          rcases mem_insert hMem with rfl | hOld
          · exact hGreater
          · exact hFirst next hOld

/-- In a sorted map the entries are the keys with their values. -/
theorem Sorted.mem_iff (h : Sorted map) {value : α} :
    (key, value) ∈ map ↔ map.get? key = some value := by
  induction map with
  | nil => simp [get?]
  | cons first rest ih =>
      obtain ⟨k, v⟩ := first
      obtain ⟨hFirst, hRest⟩ := List.pairwise_cons.1 h
      rw [get?_cons, List.mem_cons, Prod.mk.injEq]
      split
      · rename_i hKey
        subst hKey
        have hNew : (key, value) ∉ rest := fun hMem =>
          String.lt_irrefl key (hFirst (key, value) hMem)
        simp only [true_and, hNew, or_false, Option.some.injEq, eq_comm]
      · rename_i hKey
        simp [hKey, ih hRest]

theorem sorted_update (h : Sorted map) (entries : List (String × α)) :
    Sorted (map.update entries) := by
  induction entries generalizing map with
  | nil => exact h
  | cons entry rest ih => exact ih (h.insert entry.1 entry.2)

theorem get?_append (key : String) (map more : Ordered α) :
    get? key (map ++ more) = (map.get? key).or (more.get? key) :=
  List.lookup_append

theorem get?_update (key : String) (map : Ordered α) (entries : List (String × α)) :
    (map.update entries).get? key = (get? key entries.reverse).or (map.get? key) := by
  induction entries generalizing map with
  | nil => rfl
  | cons entry rest ih =>
      have hRest := ih (map.insert entry.1 entry.2)
      rw [update, List.foldl_cons, List.reverse_cons, get?_append, Option.or_assoc, get?_cons]
      rw [get?_insert] at hRest
      refine hRest.trans ?_
      split <;> rfl

/-- The value of a key is the last one that is listed for it. -/
theorem get?_ofList (key : String) (entries : List (String × α)) :
    (ofList entries).get? key = get? key entries.reverse := by
  rw [ofList, get?_update]
  exact Option.or_none

theorem sorted_ofList (entries : List (String × α)) : Sorted (ofList entries) :=
  sorted_update .nil entries

theorem get?_eq_none_iff {key : String} {map : Ordered α} :
    map.get? key = none ↔ ∀ entry ∈ map, entry.1 ≠ key := by
  rw [get?, List.lookup_eq_none_iff]
  simp only [bne_iff_ne, ne_comm]

/-- Entries that are kept for their keys keep their values. -/
theorem get?_filter (keep : String → Bool) (key : String) (entries : Ordered α) :
    get? key (entries.filter fun entry => keep entry.1) =
      if keep key then entries.get? key else none := by
  induction entries with
  | nil => simp [get?]
  | cons entry rest ih =>
      obtain ⟨k, v⟩ := entry
      rw [List.filter_cons, get?_cons]
      by_cases hKey : key = k
      · subst hKey
        cases hKeep : keep key with
        | true => simp [get?_cons]
        | false => simp [ih, hKeep]
      · rw [if_neg hKey, ← ih]
        cases keep k with
        | true => simp [get?_cons, hKey]
        | false => simp

theorem get?_erase (key other : String) (map : Ordered α) :
    (map.erase key).get? other = if other = key then none else map.get? other := by
  rw [erase, get?_filter (· != key)]
  by_cases hKey : other = key <;> simp [hKey]

theorem Sorted.erase (h : Sorted map) (key : String) : Sorted (map.erase key) :=
  h.filter _

/-- Where no key comes twice, the order of the entries does not matter. -/
theorem get?_reverse {entries : Ordered α} (h : (entries.map Prod.fst).Nodup) (key : String) :
    get? key entries.reverse = entries.get? key := by
  induction entries with
  | nil => rfl
  | cons entry rest ih =>
      obtain ⟨k, v⟩ := entry
      rw [List.map_cons, List.nodup_cons] at h
      rw [List.reverse_cons, get?_append, ih h.2, get?_cons, get?_cons]
      split
      · rename_i hKey
        subst hKey
        have hNone : get? key rest = none := get?_eq_none_iff.2 fun entry hMem hSame =>
          h.1 (List.mem_map.2 ⟨entry, hMem, hSame⟩)
        rw [hNone, Option.none_or]
      · exact Option.or_none

/-- Entries whose keys differ all keep their values in a map. -/
theorem get?_ofList_of_nodup {entries : List (String × α)} (h : (entries.map Prod.fst).Nodup)
    (key : String) : (ofList entries).get? key = get? key entries := by
  rw [get?_ofList, get?_reverse h]

theorem Sorted.nodup_keys (h : Sorted map) : (map.map Prod.fst).Nodup :=
  List.pairwise_map.2 (h.imp Std.ne_of_lt)

theorem Sorted.get?_reverse (h : Sorted map) (key : String) :
    get? key map.reverse = map.get? key :=
  Ordered.get?_reverse h.nodup_keys key

/-- Sorted maps in which every key has the same value are the same. -/
theorem Sorted.ext {other : Ordered α} (h : Sorted map) (hOther : Sorted other)
    (hSame : ∀ key, map.get? key = other.get? key) : map = other := by
  have hEntries : ∀ entry, entry ∈ map ↔ entry ∈ other := by
    rintro ⟨key, value⟩
    rw [h.mem_iff, hOther.mem_iff, hSame]
  have hPerm : map.Perm other :=
    (List.perm_ext_iff_of_nodup (List.Nodup.of_map Prod.fst h.nodup_keys)
      (List.Nodup.of_map Prod.fst hOther.nodup_keys)).2 hEntries
  exact hPerm.eq_of_pairwise
    (fun _ _ _ _ hLess hGreater => absurd (String.lt_trans hLess hGreater) (String.lt_irrefl _))
    h hOther

/-- An entry whose key no later entry has. -/
theorem get?_ofList_cons {key : String} {entries : List (String × α)}
    (h : key ∉ entries.map Prod.fst) (value : α) (other : String) :
    get? other (ofList ((key, value) :: entries)) =
      if other = key then some value else get? other (ofList entries) := by
  rw [get?_ofList, get?_ofList, List.reverse_cons, get?_append, get?_cons, get?_nil]
  by_cases hKey : other = key
  · have hNone : get? other entries.reverse = none := by
      apply get?_eq_none_iff.2
      intro entry hMem hSame
      exact h (List.mem_map.2 ⟨entry, List.mem_reverse.1 hMem, hSame.trans hKey⟩)
    rw [if_pos hKey, if_pos hKey, hNone, Option.none_or]
  · rw [if_neg hKey, if_neg hKey, Option.or_none]

theorem erase_ofList_cons {key : String} {entries : List (String × α)}
    (h : key ∉ entries.map Prod.fst) (value : α) :
    erase key (ofList ((key, value) :: entries)) = ofList entries := by
  apply Sorted.ext ((sorted_ofList _).erase key) (sorted_ofList _)
  intro other
  rw [get?_erase, get?_ofList_cons h]
  by_cases hKey : other = key
  · have hNone : get? other (ofList entries) = none := by
      rw [get?_ofList, get?_eq_none_iff]
      intro entry hMem hSame
      exact h (List.mem_map.2 ⟨entry, List.mem_reverse.1 hMem, hSame.trans hKey⟩)
    rw [if_pos hKey, hNone]
  · rw [if_neg hKey, if_neg hKey]

/-- What is kept of a map for its keys is the map of what is kept. -/
theorem ofList_filter (keep : String → Bool) (entries : List (String × α)) :
    ofList (entries.filter fun entry => keep entry.1) =
      (ofList entries).filter fun entry => keep entry.1 := by
  apply Sorted.ext (sorted_ofList _) (List.Pairwise.filter _ (sorted_ofList entries))
  intro key
  rw [get?_filter keep, get?_ofList, get?_ofList, ← List.filter_reverse, get?_filter keep]

theorem update_append (map : Ordered α) (entries more : List (String × α)) :
    map.update (entries ++ more) = (map.update entries).update more :=
  List.foldl_append

end Deckwright.Ordered
