import Deckwright.Telemetry.Engine

/-!
# How long records are kept

An engine that is full makes room for 500 records before it stores the next one. So the number of
stored records rises to 5000 and falls back to 4501, over and over, and which of the two it is near
depends on how many records were made since the engine was last cleared (`kept`).

The invariant has two halves: the stored records are the last ones of all that were made, and there
are `kept` of them. A record that is made keeps both (`Retains.record`), and clearing starts anew.

Main result: `records_run`, what an engine holds after any run of records and clearings.
-/

namespace Deckwright.Telemetry

/-- What is done to an engine: a record is stored, or all of them are dropped. -/
inductive Change where
  | record (r : CallRecord)
  | clear
  deriving Inhabited

namespace Change

/-- The records made since the last clearing when one more change is made. -/
def made : List CallRecord → Change → List CallRecord
  | records, .record r => records ++ [r]
  | _, .clear => []

/-- The records made since the last clearing, in order, whether they are still stored or not. -/
def sinceClear (changes : List Change) : List CallRecord :=
  changes.foldl made []

end Change

namespace Engine

/-- The engine after a change. -/
def change (e : Engine) : Change → Engine
  | .record r => e.record r
  | .clear => e.clear

/-- A new engine after changes, one after the other. -/
def run (changes : List Change) : Engine :=
  changes.foldl change {}

/-! ## One record -/

theorem count_eq (e : Engine) : e.count = e.records.length :=
  List.length_reverse.symm

/-- A record that is stored comes last, and the oldest ones make room for it in a full engine. -/
theorem records_record (e : Engine) (r : CallRecord) :
    (e.record r).records =
      (if capacity ≤ e.count then e.records.drop room else e.records) ++ [r] := by
  show (r :: _).reverse = _
  rw [List.reverse_cons]
  by_cases hFull : capacity ≤ e.count
  · have hRoom : e.newestFirst.length - (e.count - room) = room := by
      show e.count - (e.count - room) = room
      have : room ≤ capacity := by decide
      omega
    rw [if_pos hFull, if_pos hFull, List.reverse_take, hRoom]
    rfl
  · rw [if_neg hFull, if_neg hFull]
    rfl

/-! ## The number of stored records -/

/-- How many of the records made since the last clearing are stored. -/
def kept (made : Nat) : Nat :=
  if made ≤ 5000 then made else 4501 + (made - 5001) % 500

theorem kept_le_capacity (made : Nat) : kept made ≤ capacity := by
  show kept made ≤ 5000
  unfold kept
  split <;> omega

/-- The latest 4501 records are stored, or all if there are not so many. -/
theorem min_le_kept {limit : Nat} (hLimit : limit ≤ 4501) (made : Nat) :
    min limit made ≤ kept made := by
  unfold kept
  split <;> omega

/-- One more record is stored, and in a full engine 500 others are not any more. -/
theorem kept_succ (made : Nat) :
    kept (made + 1) = (if capacity ≤ kept made then kept made - room else kept made) + 1 := by
  show _ = (if 5000 ≤ kept made then kept made - 500 else kept made) + 1
  unfold kept
  split <;> split <;> split <;> omega

/-- The record that finds the engine full is the first one after which old ones are missing. -/
example : kept 5000 = 5000 ∧ kept 5001 = 4501 ∧ kept 5500 = 5000 ∧ kept 5501 = 4501 := by
  decide

/-! ## Runs -/

/-- The engine stores the last of the records that were made, as many of them as are kept. -/
structure Retains (e : Engine) (made : List CallRecord) : Prop where
  suffix : e.records <:+ made
  count : e.count = kept made.length

theorem retains_empty : Retains {} [] where
  suffix := List.suffix_refl []
  count := rfl

theorem Retains.record {e : Engine} {made : List CallRecord} (h : e.Retains made)
    (r : CallRecord) : (e.record r).Retains (made ++ [r]) where
  suffix := by
    have hOld : (if capacity ≤ e.count then e.records.drop room else e.records) <:+ made := by
      split
      · exact (List.drop_suffix room e.records).trans h.suffix
      · exact h.suffix
    obtain ⟨gone, hGone⟩ := hOld
    rw [records_record]
    exact ⟨gone, by rw [← List.append_assoc, hGone]⟩
  count := by
    rw [count_eq, records_record, List.length_append, List.length_append, List.length_singleton,
      kept_succ, ← h.count]
    split
    · rw [List.length_drop, ← count_eq]
    · rw [← count_eq]

theorem Retains.change {e : Engine} {made : List CallRecord} (h : e.Retains made) (c : Change) :
    (e.change c).Retains (Change.made made c) := by
  cases c with
  | record r => exact h.record r
  | clear => exact retains_empty

theorem retains_foldl {e : Engine} {made : List CallRecord} (h : e.Retains made)
    (changes : List Change) :
    (changes.foldl Engine.change e).Retains (changes.foldl Change.made made) := by
  induction changes generalizing e made with
  | nil => exact h
  | cons c rest ih => exact ih (h.change c)

theorem retains_run (changes : List Change) : (run changes).Retains (Change.sinceClear changes) :=
  retains_foldl retains_empty changes

/-- The newest records, as many as are asked for, are the last ones of the stored ones. -/
theorem recent_eq (e : Engine) (limit : Nat) : e.recent limit = e.records.reverse.take limit := by
  rw [records, List.reverse_reverse, recent]

/-- A list and an end of it have the same last members, as far as the end reaches. -/
theorem take_reverse_of_suffix {α : Type} {list longer : List α} (h : list <:+ longer)
    {limit : Nat} (hLimit : min limit longer.length ≤ list.length) :
    list.reverse.take limit = longer.reverse.take limit := by
  obtain ⟨front, rfl⟩ := h
  have hNone : front.reverse.take (limit - list.length) = [] := by
    rw [List.length_append] at hLimit
    rw [List.take_eq_nil_iff, List.reverse_eq_nil_iff, ← List.length_eq_zero_iff]
    omega
  rw [List.reverse_append, List.take_append, List.length_reverse, hNone, List.append_nil]

/--
**What an engine holds.** After any changes the stored records are the last ones of those made
since the last clearing: all of them while there are no more than 5000, and from then on the last
`4501 + (made - 5001) % 500`. There are never more than 5000, and the newest 4501 can always be
asked for.
-/
theorem records_run (changes : List Change) :
    (run changes).records <:+ Change.sinceClear changes ∧
    (run changes).count ≤ 5000 ∧
    ((Change.sinceClear changes).length ≤ 5000 →
      (run changes).records = Change.sinceClear changes) ∧
    (5000 < (Change.sinceClear changes).length →
      (run changes).count = 4501 + ((Change.sinceClear changes).length - 5001) % 500 ∧
      (run changes).records = (Change.sinceClear changes).drop
        ((Change.sinceClear changes).length -
          (4501 + ((Change.sinceClear changes).length - 5001) % 500))) ∧
    ∀ limit ≤ 4501,
      (run changes).recent limit = (Change.sinceClear changes).reverse.take limit := by
  have h := retains_run changes
  generalize run changes = e at h ⊢
  generalize Change.sinceClear changes = made at h ⊢
  have hLength : e.records.length = kept made.length := by rw [← count_eq, h.count]
  refine ⟨h.suffix, ?_, ?_, ?_, ?_⟩
  · rw [h.count]
    exact kept_le_capacity made.length
  · intro hFew
    rw [kept, if_pos hFew] at hLength
    exact h.suffix.eq_of_length hLength
  · intro hMany
    have hCount := h.count
    rw [kept, if_neg (by omega)] at hLength hCount
    refine ⟨hCount, ?_⟩
    rw [← hLength]
    exact List.suffix_iff_eq_drop.1 h.suffix
  · intro limit hLimit
    rw [recent_eq]
    apply take_reverse_of_suffix h.suffix
    rw [hLength]
    exact min_le_kept hLimit made.length

end Engine

end Deckwright.Telemetry
