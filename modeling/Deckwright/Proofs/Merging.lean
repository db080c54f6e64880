import Mathlib.Data.List.Induction
import Mathlib.Data.List.Nodup
import Deckwright.Document.Draft

/-!
# Merging by key

Context variables and tools are merged into lists by their names: an element of a known name takes
the place of the one that is there, one of a new name goes to the end. `mergeBy` is that operation
for any key, with `put` for what the new element takes over from the old one, and everything about
it follows from three equations (`Overwrites`).

* `map_key_foldl_mergeBy`: the keys of a merged list are those of the elements, without repeats.
* `foldl_mergeBy_put`, `foldl_mergeBy_of_mem`: an element that is changed in the middle of a list
  is merged last if its key does not come again, and does not matter if it does.
* `foldl_mergeBy_foldl`: merging in portions is merging one by one.
* `foldl_mergeBy_between`, `foldl_mergeBy_filter`: merging around other elements, and merging some
  of the elements later than they come.
* `filter_foldl_mergeBy`: keeping the elements of some keys before or after they are merged.
-/

namespace Deckwright

/-- A key that is there is that of a first element. -/
theorem exists_first {α κ : Type} {key : α → κ} {list : List α} {k : κ} (hMem : k ∈ list.map key) :
    ∃ before x after, list = before ++ x :: after ∧ key x = k ∧ k ∉ before.map key := by
  obtain ⟨front, back, hSplit, hNew⟩ := List.eq_append_cons_of_mem hMem
  obtain ⟨before, rest, rfl, rfl, hRest⟩ := List.map_eq_append_iff.1 hSplit
  obtain ⟨x, after, rfl, hKey, rfl⟩ := List.map_eq_cons_iff.1 hRest
  exact ⟨before, x, after, rfl, hKey, hNew⟩

/-- Where no two keys are the same, it is that of one element only. -/
theorem exists_only {α κ : Type} {key : α → κ} {list : List α}
    (hNodup : (list.map key).Nodup) {k : κ} (hMem : k ∈ list.map key) :
    ∃ before x after, list = before ++ x :: after ∧ key x = k ∧ k ∉ before.map key ∧
      k ∉ after.map key := by
  obtain ⟨before, x, after, rfl, rfl, hBefore⟩ := exists_first hMem
  rw [List.map_append, List.map_cons, List.nodup_append, List.nodup_cons] at hNodup
  exact ⟨before, x, after, rfl, rfl, hBefore, hNodup.2.1.1⟩

section MergeBy

variable {α κ : Type} [DecidableEq κ]

/-- A list with one more element; it takes the place of the first one with its key. -/
def mergeBy (key : α → κ) (put : α → α → α) : List α → α → List α
  | [], x => [x]
  | y :: rest, x => if key y = key x then put y x :: rest else y :: mergeBy key put rest x

/-- What a new element keeps of the one in whose place it is put: never the key, and always the
same, whatever was put there in between. -/
structure Overwrites (key : α → κ) (put : α → α → α) : Prop where
  key_put : ∀ old new, key (put old new) = key new
  put_put : ∀ first old new, put (put first old) new = put first new
  put_of_put : ∀ first old new, put first (put old new) = put first new

/-- Keys with one more, unless it is there. -/
def addKey (keys : List κ) (k : κ) : List κ :=
  if k ∈ keys then keys else keys ++ [k]

variable {key : α → κ} {put : α → α → α}

theorem mem_foldl_addKey {keys more : List κ} {k : κ} :
    k ∈ more.foldl addKey keys ↔ k ∈ keys ∨ k ∈ more := by
  induction more generalizing keys with
  | nil => simp
  | cons first rest ih =>
      rw [List.foldl_cons, ih, addKey]
      split
      · rename_i hMem
        simp only [List.mem_cons]
        constructor
        · exact fun h => h.imp_right .inr
        · rintro (hKeys | rfl | hRest)
          · exact .inl hKeys
          · exact .inl hMem
          · exact .inr hRest
      · simp [or_assoc]

theorem nodup_foldl_addKey {keys : List κ} (h : keys.Nodup) (more : List κ) :
    (more.foldl addKey keys).Nodup := by
  induction more generalizing keys with
  | nil => exact h
  | cons first rest ih =>
      refine ih ?_
      unfold addKey
      split
      · exact h
      · rename_i hNew
        rw [List.nodup_append]
        refine ⟨h, List.pairwise_singleton _ _, ?_⟩
        rintro _ hMem _ hLast rfl
        exact hNew (List.mem_singleton.1 hLast ▸ hMem)

/-- Keys that are there already may be left out. -/
theorem foldl_addKey_filter {keys more : List κ} {keep : κ → Bool}
    (h : ∀ k ∈ more, keep k = false → k ∈ keys) :
    (more.filter keep).foldl addKey keys = more.foldl addKey keys := by
  induction more generalizing keys with
  | nil => rfl
  | cons first rest ih =>
      have hRest : ∀ k ∈ rest, keep k = false → k ∈ addKey keys first := by
        intro k hMem hDrop
        have hIn := h k (List.mem_cons_of_mem first hMem) hDrop
        unfold addKey
        split
        · exact hIn
        · exact List.mem_append_left _ hIn
      rw [List.filter_cons, List.foldl_cons]
      cases hCase : keep first with
      | true => exact ih hRest
      | false =>
          have hKnown : addKey keys first = keys := if_pos (h first List.mem_cons_self hCase)
          rw [hKnown] at hRest ⊢
          exact ih hRest

/-- An element whose key does not come up in front goes past all of it. -/
theorem mergeBy_append_of_not_mem {front back : List α} {x : α} (h : key x ∉ front.map key) :
    mergeBy key put (front ++ back) x = front ++ mergeBy key put back x := by
  induction front with
  | nil => rfl
  | cons y rest ih =>
      simp only [List.map_cons, List.mem_cons, not_or] at h
      rw [List.cons_append, mergeBy, if_neg (Ne.symm h.1), ih h.2, List.cons_append]

theorem mergeBy_of_new {list : List α} {x : α} (h : key x ∉ list.map key) :
    mergeBy key put list x = list ++ [x] := by
  have hPast : mergeBy key put (list ++ []) x = list ++ [x] := mergeBy_append_of_not_mem h
  rwa [List.append_nil] at hPast

/-- An element goes into the place of the first one with its key. -/
theorem mergeBy_append {before after : List α} {x y : α} (hKey : key y = key x)
    (hNew : key x ∉ before.map key) :
    mergeBy key put (before ++ y :: after) x = before ++ put y x :: after := by
  rw [mergeBy_append_of_not_mem hNew, mergeBy, if_pos hKey]

/-- An element whose key comes up in front changes nothing behind. -/
theorem mergeBy_append_of_mem {front back : List α} {x : α} (h : key x ∈ front.map key) :
    mergeBy key put (front ++ back) x = mergeBy key put front x ++ back := by
  obtain ⟨before, y, after, rfl, hKey, hNew⟩ := exists_first h
  rw [List.append_assoc, List.cons_append, mergeBy_append hKey hNew, mergeBy_append hKey hNew,
    List.append_assoc, List.cons_append]

/-- Elements of different keys are merged in their order. -/
theorem foldl_mergeBy_of_nodup {list more : List α} (h : ((list ++ more).map key).Nodup) :
    more.foldl (mergeBy key put) list = list ++ more := by
  induction more generalizing list with
  | nil => simp
  | cons x rest ih =>
      have hNew : key x ∉ list.map key := by
        rw [List.map_append] at h
        intro hMem
        exact (List.nodup_append.1 h).2.2 _ hMem _ List.mem_cons_self rfl
      rw [List.foldl_cons, mergeBy_of_new hNew, ih (by simpa using h)]
      simp

namespace Overwrites

variable (h : Overwrites key put)

include h

theorem map_key_mergeBy (list : List α) (x : α) :
    (mergeBy key put list x).map key = addKey (list.map key) (key x) := by
  unfold addKey
  split
  · rename_i hMem
    obtain ⟨before, y, after, rfl, hKey, hNew⟩ := exists_first hMem
    rw [mergeBy_append hKey hNew, List.map_append, List.map_cons, List.map_append, List.map_cons,
      h.key_put, hKey]
  · rename_i hNew
    rw [mergeBy_of_new hNew, List.map_append, List.map_singleton]

/-- The keys of a merged list depend on the keys of the elements only. -/
theorem map_key_foldl_mergeBy (list more : List α) :
    (more.foldl (mergeBy key put) list).map key = (more.map key).foldl addKey (list.map key) := by
  induction more generalizing list with
  | nil => rfl
  | cons x rest ih => rw [List.foldl_cons, ih, h.map_key_mergeBy, List.map_cons, List.foldl_cons]

/-- Two elements of one key, merged one after the other, are the second in the place of the
first. -/
theorem mergeBy_mergeBy_put {x y : α} (hKey : key y = key x) (list : List α) :
    mergeBy key put (mergeBy key put list y) x = mergeBy key put list (put y x) := by
  induction list with
  | nil => simp only [mergeBy, if_pos hKey]
  | cons z rest ih =>
      by_cases hFirst : key z = key y
      · simp only [mergeBy, if_pos hFirst, h.key_put, if_pos hKey, if_pos (hFirst.trans hKey),
          h.put_put, h.put_of_put]
      · have hOther : ¬ key z = key x := hKey ▸ hFirst
        simp only [mergeBy, if_neg hFirst, h.key_put, if_neg hOther, ih]

/-- Of two elements of one key the first one does not matter where the key is known. -/
theorem mergeBy_mergeBy_of_mem {x y : α} (hKey : key y = key x) {list : List α}
    (hMem : key y ∈ list.map key) :
    mergeBy key put (mergeBy key put list y) x = mergeBy key put list x := by
  induction list with
  | nil => cases hMem
  | cons z rest ih =>
      by_cases hFirst : key z = key y
      · simp only [mergeBy, if_pos hFirst, h.key_put, if_pos hKey, if_pos (hFirst.trans hKey),
          h.put_put]
      · have hOther : ¬ key z = key x := hKey ▸ hFirst
        have hRest : key y ∈ rest.map key := by
          rw [List.map_cons, List.mem_cons] at hMem
          exact hMem.resolve_left (Ne.symm hFirst)
        simp only [mergeBy, if_neg hFirst, if_neg hOther, ih hRest]

/-- The order of two elements of different keys does not matter where the one is known. -/
theorem mergeBy_comm {x y : α} (hKey : key x ≠ key y) {list : List α}
    (hMem : key x ∈ list.map key) :
    mergeBy key put (mergeBy key put list x) y = mergeBy key put (mergeBy key put list y) x := by
  induction list with
  | nil => cases hMem
  | cons z rest ih =>
      by_cases hFirst : key z = key x
      · have hOther : ¬ key z = key y := hFirst ▸ hKey
        have hPut : ¬ key (put z x) = key y := by rwa [h.key_put]
        simp only [mergeBy, if_pos hFirst, if_neg hPut, if_neg hOther]
      · have hRest : key x ∈ rest.map key := by
          rw [List.map_cons, List.mem_cons] at hMem
          exact hMem.resolve_left (Ne.symm hFirst)
        by_cases hSecond : key z = key y
        · have hPut : ¬ key (put z y) = key x := by
            rw [h.key_put]
            exact Ne.symm hKey
          simp only [mergeBy, if_neg hFirst, if_pos hSecond, if_neg hPut]
        · simp only [mergeBy, if_neg hFirst, if_neg hSecond, ih hRest]

/-- An element whose key does not come again may be merged behind all others. -/
theorem foldl_mergeBy_comm {x : α} {list more : List α} (hMem : key x ∈ list.map key)
    (hNew : key x ∉ more.map key) :
    more.foldl (mergeBy key put) (mergeBy key put list x) =
      mergeBy key put (more.foldl (mergeBy key put) list) x := by
  induction more generalizing list with
  | nil => rfl
  | cons y rest ih =>
      simp only [List.map_cons, List.mem_cons, not_or] at hNew
      have hLater : key x ∈ (mergeBy key put list y).map key := by
        rw [h.map_key_mergeBy, addKey]
        split
        · exact hMem
        · exact List.mem_append_left _ hMem
      rw [List.foldl_cons, h.mergeBy_comm hNew.1 hMem, ih hLater hNew.2, List.foldl_cons]

/-- A change of an element whose key does not come again is a change of the merged list. -/
theorem foldl_mergeBy_put {x y : α} (hKey : key y = key x) (list : List α) {more : List α}
    (hNew : key x ∉ more.map key) :
    more.foldl (mergeBy key put) (mergeBy key put list (put y x)) =
      mergeBy key put (more.foldl (mergeBy key put) (mergeBy key put list y)) x := by
  have hMem : key x ∈ (mergeBy key put list y).map key := by
    rw [h.map_key_mergeBy, addKey, hKey]
    split
    · assumption
    · simp
  rw [← h.mergeBy_mergeBy_put hKey, h.foldl_mergeBy_comm hMem hNew]

/-- A change of an element whose key comes again is lost. -/
theorem foldl_mergeBy_of_mem {x y : α} (hKey : key y = key x) (list : List α) {more : List α}
    (hMem : key x ∈ more.map key) :
    more.foldl (mergeBy key put) (mergeBy key put list (put y x)) =
      more.foldl (mergeBy key put) (mergeBy key put list y) := by
  -- up to the next element of the key the change may be put off, and that one undoes it
  obtain ⟨before, z, after, rfl, hLast, hNew⟩ := exists_first hMem
  have hKnown : key x ∈ (before.foldl (mergeBy key put) (mergeBy key put list y)).map key := by
    rw [h.map_key_foldl_mergeBy, mem_foldl_addKey, h.map_key_mergeBy, addKey, hKey]
    split
    · exact .inl ‹_›
    · exact .inl (by simp)
  rw [List.foldl_append, List.foldl_append, List.foldl_cons, List.foldl_cons,
    h.foldl_mergeBy_put hKey list hNew, h.mergeBy_mergeBy_of_mem hLast.symm hKnown]

/-- Merging an element into a portion is merging it behind the portion. -/
theorem foldl_mergeBy_mergeBy (list : List α) {portion : List α}
    (hNodup : (portion.map key).Nodup) (x : α) :
    (mergeBy key put portion x).foldl (mergeBy key put) list =
      mergeBy key put (portion.foldl (mergeBy key put) list) x := by
  by_cases hMem : key x ∈ portion.map key
  · obtain ⟨before, y, after, rfl, hKey, hBefore, hAfter⟩ := exists_only hNodup hMem
    rw [mergeBy_append hKey hBefore, List.foldl_append, List.foldl_append, List.foldl_cons,
      List.foldl_cons, h.foldl_mergeBy_put hKey _ hAfter]
  · rw [mergeBy_of_new hMem, List.foldl_append, List.foldl_cons, List.foldl_nil]

/-- Merging a portion that was merged in itself is merging its elements one by one. -/
theorem foldl_mergeBy_foldl (list portion : List α) :
    (portion.foldl (mergeBy key put) []).foldl (mergeBy key put) list =
      portion.foldl (mergeBy key put) list := by
  induction portion using List.reverseRecOn with
  | nil => rfl
  | append_singleton rest x ih =>
      have hNodup : ((rest.foldl (mergeBy key put) []).map key).Nodup := by
        rw [h.map_key_foldl_mergeBy]
        exact nodup_foldl_addKey List.nodup_nil _
      rw [List.foldl_append, List.foldl_append, List.foldl_cons, List.foldl_nil, List.foldl_cons,
        List.foldl_nil, h.foldl_mergeBy_mergeBy list hNodup, ih]

/-- Elements of known keys are merged in front of what stands in between, all others behind it. -/
theorem foldl_mergeBy_between {front middle : List α} (back : List α) {more : List α}
    (hMiddle : ∀ x ∈ more, key x ∉ middle.map key) :
    more.foldl (mergeBy key put) (front ++ middle ++ back) =
      (more.filter (key · ∈ front.map key)).foldl (mergeBy key put) front ++ middle ++
        (more.filter (key · ∉ front.map key)).foldl (mergeBy key put) back := by
  induction more generalizing front back with
  | nil => rfl
  | cons x rest ih =>
      have hRest : ∀ y ∈ rest, key y ∉ middle.map key := fun y hMem =>
        hMiddle y (List.mem_cons_of_mem x hMem)
      rw [List.foldl_cons, List.append_assoc]
      by_cases hKnown : key x ∈ front.map key
      · have hKeys : (mergeBy key put front x).map key = front.map key := by
          rw [h.map_key_mergeBy, addKey, if_pos hKnown]
        rw [mergeBy_append_of_mem hKnown, ← List.append_assoc, ih back hRest, hKeys,
          List.filter_cons_of_pos (by simpa using hKnown),
          List.filter_cons_of_neg (by simpa using hKnown), List.foldl_cons]
      · rw [mergeBy_append_of_not_mem hKnown,
          mergeBy_append_of_not_mem (hMiddle x List.mem_cons_self), ← List.append_assoc,
          ih _ hRest, List.filter_cons_of_neg (by simpa using hKnown),
          List.filter_cons_of_pos (by simpa using hKnown), List.foldl_cons]

/-- Elements of different keys may be merged behind the others if their keys are known. -/
theorem foldl_mergeBy_filter {list more : List α} (hNodup : (more.map key).Nodup)
    {later : α → Bool} (hKnown : ∀ x ∈ more, later x → key x ∈ list.map key) :
    more.foldl (mergeBy key put) list =
      (more.filter later).foldl (mergeBy key put)
        ((more.filter (!later ·)).foldl (mergeBy key put) list) := by
  induction more generalizing list with
  | nil => rfl
  | cons x rest ih =>
      rw [List.map_cons, List.nodup_cons] at hNodup
      have hRest : ∀ y ∈ rest, later y → key y ∈ (mergeBy key put list x).map key := by
        intro y hMem hLater
        have hOld := hKnown y (List.mem_cons_of_mem x hMem) hLater
        rw [h.map_key_mergeBy, addKey]
        split
        · exact hOld
        · exact List.mem_append_left _ hOld
      rw [List.foldl_cons, ih hNodup.2 hRest, List.filter_cons, List.filter_cons]
      cases hCase : later x with
      | true =>
          have hNew : key x ∉ (rest.filter (!later ·)).map key := fun hMem =>
            hNodup.1 (List.map_subset key (List.filter_subset_self rest) hMem)
          rw [h.foldl_mergeBy_comm (hKnown x List.mem_cons_self hCase) hNew]
          rfl
      | false => rfl

/-- An element of a key that is kept is merged into what is kept; any other one leaves no trace. -/
theorem filter_mergeBy (keep : κ → Bool) (list : List α) (x : α) :
    (mergeBy key put list x).filter (fun y => keep (key y)) =
      if keep (key x) then mergeBy key put (list.filter fun y => keep (key y)) x
      else list.filter fun y => keep (key y) := by
  induction list with
  | nil => simp [mergeBy, List.filter_cons]
  | cons y rest ih =>
      by_cases hKey : key y = key x
      · rw [mergeBy, if_pos hKey, List.filter_cons, List.filter_cons, h.key_put, hKey]
        cases keep (key x) with
        | true => simp [mergeBy, hKey]
        | false => simp
      · rw [mergeBy, if_neg hKey, List.filter_cons, List.filter_cons, ih]
        cases keep (key y) with
        | true =>
            cases keep (key x) with
            | true => simp [mergeBy, hKey]
            | false => simp
        | false => simp

/-- What is kept of a merged list is merged of what is kept. -/
theorem filter_foldl_mergeBy (keep : κ → Bool) (list more : List α) :
    (more.foldl (mergeBy key put) list).filter (fun y => keep (key y)) =
      (more.filter fun y => keep (key y)).foldl (mergeBy key put)
        (list.filter fun y => keep (key y)) := by
  induction more generalizing list with
  | nil => rfl
  | cons x rest ih =>
      rw [List.foldl_cons, ih, h.filter_mergeBy, List.filter_cons]
      cases keep (key x) with
      | true => simp
      | false => simp

end Overwrites

end MergeBy

/-! ## Tools and variables -/

theorem Document.mergeTool_eq : mergeTool = mergeBy Tool.name fun _ new => new := by
  funext tools tool
  induction tools with
  | nil => rfl
  | cons first rest ih => simp only [mergeTool, mergeBy, ih]

theorem Tool.overwrites : Overwrites Tool.name fun _ new => new where
  key_put _ _ := rfl
  put_put _ _ _ := rfl
  put_of_put _ _ _ := rfl

/-- A variable in the place of another one. -/
def ContextVariable.inPlaceOf (old new : ContextVariable) : ContextVariable :=
  { new with position := old.position }

theorem mergeContext_eq :
    mergeContext = mergeBy ContextVariable.name ContextVariable.inPlaceOf := by
  funext declared v
  induction declared with
  | nil => rfl
  | cons first rest ih =>
      simp only [mergeContext, mergeBy, ih]
      rfl

theorem ContextVariable.overwrites :
    Overwrites ContextVariable.name ContextVariable.inPlaceOf where
  key_put _ _ := rfl
  put_put _ _ _ := rfl
  put_of_put _ _ _ := rfl

end Deckwright
