import Mathlib.Algebra.Ring.Nat
import Mathlib.Data.List.Induction
import Deckwright.Proofs.Markers
import Deckwright.Proofs.Retention

/-!
# Summaries

A summary counts in words of 64 bits. What it should count is defined here on natural numbers: the
calls that have ended, those of them that succeeded or failed, and the sum of their durations. The
additions are checked one by one, and that comes to one check of the whole (`ofRecords_eq`): there is
a summary if and only if the number of calls and the sum fit into words, and then it is exact. The
induction is over the records, and `counted_add` is its step.

An engine never stores more than 5000 records, so the counts of calls fit there. The sum of
durations need not: two calls are enough to exceed a word.

Main results: `exact_iff`, which lists of records have an exact summary, and `consistent_run`, how
the queries of an engine fit together.
-/

namespace Deckwright.Telemetry

/-! ## What is counted -/

/-- The number of calls that have ended. -/
def finished (records : List CallRecord) : Nat :=
  records.countP CallRecord.isFinished

/-- The number of calls that have ended with, or without, success. -/
def ended (success : Bool) (records : List CallRecord) : Nat :=
  records.countP fun r => r.success = some success

/-- The sum of the durations of the calls that have ended, none counting as 0. -/
def duration (records : List CallRecord) : Nat :=
  ((records.filter CallRecord.isFinished).map fun r => (r.duration.getD 0).toNat).sum

section Counts

variable {r : CallRecord} {records other : List CallRecord}

/-- A call that has not ended is not counted. -/
theorem counts_cons_unfinished (h : r.success = none) (records : List CallRecord) :
    finished (r :: records) = finished records ∧
      (∀ success, ended success (r :: records) = ended success records) ∧
      duration (r :: records) = duration records := by
  have hFinished : r.isFinished = false := by simp [CallRecord.isFinished, h]
  exact ⟨by simp [finished, hFinished], fun success => by simp [ended, h],
    by simp [duration, hFinished]⟩

/-- A call that has ended is counted with its duration, as a success or as a failure. -/
theorem counts_cons_finished {outcome : Bool} (h : r.success = some outcome)
    (records : List CallRecord) :
    finished (r :: records) = finished records + 1 ∧
      ended true (r :: records) = ended true records + outcome.toNat ∧
      ended false (r :: records) = ended false records + (!outcome).toNat ∧
      duration (r :: records) = duration records + (r.duration.getD 0).toNat := by
  have hFinished : r.isFinished = true := by simp [CallRecord.isFinished, h]
  refine ⟨by simp [finished, hFinished], ?_, ?_, by simp [duration, hFinished, Nat.add_comm]⟩
  all_goals cases outcome <;> simp [ended, h]

/-- A call that has ended has succeeded or failed. -/
theorem finished_eq (records : List CallRecord) :
    finished records = ended true records + ended false records := by
  induction records with
  | nil => rfl
  | cons r rest ih =>
      cases hSuccess : r.success with
      | none =>
          obtain ⟨hCalls, hEnded, -⟩ := counts_cons_unfinished hSuccess rest
          rw [hCalls, hEnded, hEnded, ih]
      | some outcome =>
          obtain ⟨hCalls, hTrue, hFalse, -⟩ := counts_cons_finished hSuccess rest
          rw [hCalls, hTrue, hFalse, ih]
          cases outcome <;> simp only [Bool.toNat_true, Bool.toNat_false, Bool.not_true,
            Bool.not_false] <;> omega

theorem finished_le_length (records : List CallRecord) : finished records ≤ records.length :=
  List.countP_le_length

theorem finished_perm (h : records.Perm other) : finished records = finished other :=
  h.countP_eq _

theorem ended_perm (h : records.Perm other) (success : Bool) :
    ended success records = ended success other :=
  h.countP_eq _

theorem duration_perm (h : records.Perm other) : duration records = duration other :=
  ((h.filter _).map _).sum_nat

end Counts

/-! ## One list of records -/

namespace Summary

section Words

variable {n : Nat} {w : UInt64}

theorem word?_of_lt (h : n < 2 ^ 64) : word? n = some (.ofNat n) :=
  if_pos h

theorem word?_eq_some_iff : word? n = some w ↔ w.toNat = n := by
  constructor
  · intro h
    obtain ⟨hFits, hWord⟩ := Option.ite_none_right_eq_some.1 h
    rw [← Option.some.inj hWord]
    exact UInt64.toNat_ofNat_of_lt' hFits
  · rintro rfl
    rw [word?_of_lt w.toNat_lt, UInt64.ofNat_toNat]

end Words

variable {deckId : String} {records other : List CallRecord} {r : CallRecord}

/-- The number of calls that have ended and the sum of their durations are words. -/
def Fits (records : List CallRecord) : Prop :=
  finished records < 2 ^ 64 ∧ duration records < 2 ^ 64

instance (records : List CallRecord) : Decidable (Fits records) :=
  inferInstanceAs (Decidable (_ ∧ _))

/-- The statistics before there is an average. -/
def counted (deckId : String) (records : List CallRecord) : Summary :=
  { deckId
    calls := .ofNat (finished records)
    successes := .ofNat (ended true records)
    failures := .ofNat (ended false records)
    totalDuration := .ofNat (duration records) }

/-- The statistics that a summary should hold. -/
def exact (deckId : String) (records : List CallRecord) : Summary :=
  { counted deckId records with averageDuration := .ofNat (duration records / finished records) }

theorem Fits.ended_lt (h : Fits records) (success : Bool) : ended success records < 2 ^ 64 := by
  have hBoth := finished_eq records
  have hFew := h.1
  cases success <;> omega

theorem Fits.of_cons (h : Fits (r :: records)) : Fits records := by
  cases hSuccess : r.success with
  | none =>
      obtain ⟨hCalls, -, hDuration⟩ := counts_cons_unfinished hSuccess records
      rwa [Fits, hCalls, hDuration] at h
  | some outcome =>
      obtain ⟨hCalls, -, -, hDuration⟩ := counts_cons_finished hSuccess records
      rw [Fits, hCalls, hDuration] at h
      exact ⟨by omega, by omega⟩

theorem fits_perm (h : records.Perm other) : Fits records ↔ Fits other := by
  rw [Fits, Fits, finished_perm h, duration_perm h]

theorem counted_perm (h : records.Perm other) (deckId : String) :
    counted deckId records = counted deckId other := by
  simp only [counted, finished_perm h, ended_perm h, duration_perm h]

/-- One more call is counted if that fits. -/
theorem counted_add (h : Fits records) (r : CallRecord) :
    (counted deckId records).add r =
      if Fits (r :: records) then some (counted deckId (r :: records)) else none := by
  cases hSuccess : r.success with
  | none =>
      obtain ⟨hCalls, hEnded, hDuration⟩ := counts_cons_unfinished hSuccess records
      have hSame : counted deckId (r :: records) = counted deckId records := by
        rw [counted, counted, hCalls, hEnded, hEnded, hDuration]
      have hFits : Fits (r :: records) := by rwa [Fits, hCalls, hDuration]
      rw [add, hSuccess, if_pos hFits, hSame]
  | some outcome =>
      obtain ⟨hCalls, hTrue, hFalse, hDuration⟩ := counts_cons_finished hSuccess records
      have hAdd : (counted deckId records).add r = do
          let successes ← word? (ended true (r :: records))
          let failures ← word? (ended false (r :: records))
          let calls ← word? (finished (r :: records))
          let totalDuration ← word? (duration (r :: records))
          return { deckId, successes, failures, calls, totalDuration } := by
        simp only [add, hSuccess, counted, UInt64.toNat_ofNat_of_lt' (h.ended_lt _),
          UInt64.toNat_ofNat_of_lt' h.1, UInt64.toNat_ofNat_of_lt' h.2]
        rw [hCalls, hTrue, hFalse, hDuration]
      rw [hAdd]
      split
      · rename_i hFits
        rw [word?_of_lt (hFits.ended_lt true), word?_of_lt (hFits.ended_lt false),
          word?_of_lt hFits.1, word?_of_lt hFits.2]
        rfl
      · rename_i hFull
        -- the first two counts may fit, but not both of the others
        rw [Option.eq_none_iff_forall_ne_some]
        intro s hSome
        simp only [Option.bind_eq_bind, Option.bind_eq_some_iff, word?_eq_some_iff] at hSome
        obtain ⟨-, -, -, -, calls, hNumber, total, hSum, -⟩ := hSome
        exact hFull ⟨hNumber ▸ calls.toNat_lt, hSum ▸ total.toNat_lt⟩

/-- Checked one by one, the additions go well if the counts of the whole fit. -/
theorem foldlM_add (deckId : String) (records : List CallRecord) :
    records.foldlM add { deckId } =
      if Fits records then some (counted deckId records) else none := by
  induction records using List.reverseRecOn with
  | nil => rfl
  | append_singleton rest r ih =>
      -- the counts do not depend on the order, so the last record may be the first
      have hPerm : (rest ++ [r]).Perm (r :: rest) := List.perm_append_singleton r rest
      rw [List.foldlM_append, ih, counted_perm hPerm]
      simp only [fits_perm hPerm]
      by_cases hRest : Fits rest
      · rw [if_pos hRest]
        show ((counted deckId rest).add r >>= pure) = _
        rw [bind_pure, counted_add hRest]
      · rw [if_neg hRest, if_neg fun hAll => hRest hAll.of_cons]
        rfl

/-- The average of words is that of the numbers. -/
theorem counted_average (h : Fits records) :
    (if UInt64.ofNat (finished records) = 0 then 0
      else UInt64.ofNat (duration records) / UInt64.ofNat (finished records)) =
      UInt64.ofNat (duration records / finished records) := by
  have hCalls : (UInt64.ofNat (finished records)).toNat = finished records :=
    UInt64.toNat_ofNat_of_lt' h.1
  have hTotal : (UInt64.ofNat (duration records)).toNat = duration records :=
    UInt64.toNat_ofNat_of_lt' h.2
  have hAverage : (UInt64.ofNat (duration records / finished records)).toNat =
      duration records / finished records :=
    UInt64.toNat_ofNat_of_lt' (Nat.lt_of_le_of_lt (Nat.div_le_self _ _) h.2)
  rw [← UInt64.toNat_inj, hAverage]
  split
  · rename_i hNone
    have hZero : finished records = 0 := by
      rw [← hCalls, hNone]
      rfl
    rw [hZero, Nat.div_zero]
    rfl
  · rw [UInt64.toNat_div, hCalls, hTotal]

/-- **Checked additions.** There is a summary if and only if the counts fit, and it is exact. -/
theorem ofRecords_eq (deckId : String) (records : List CallRecord) :
    ofRecords deckId records = if Fits records then some (exact deckId records) else none := by
  rw [ofRecords, foldlM_add]
  by_cases hFits : Fits records
  · rw [if_pos hFits, if_pos hFits, exact, ← counted_average hFits]
    rfl
  · rw [if_neg hFits, if_neg hFits]
    rfl

/-- The order of the records does not matter. -/
theorem ofRecords_perm (h : records.Perm other) (deckId : String) :
    ofRecords deckId records = ofRecords deckId other := by
  simp only [ofRecords_eq, exact, fits_perm h, counted_perm h, finished_perm h, duration_perm h]

theorem ofRecords_eq_some_iff {s : Summary} :
    ofRecords deckId records = some s ↔ Fits records ∧ s = exact deckId records := by
  rw [ofRecords_eq, Option.ite_none_right_eq_some, Option.some.injEq, eq_comm (b := s)]

/-- The calls of a summary are those that have ended, the total is the sum of their durations, and
the average is that sum divided by their number, rounded down. -/
structure Tells (s : Summary) (records : List CallRecord) : Prop where
  calls : s.calls.toNat = finished records
  successes : s.successes.toNat = ended true records
  failures : s.failures.toNat = ended false records
  total : s.totalDuration.toNat = duration records
  average : s.averageDuration.toNat = duration records / finished records

namespace Tells

variable {s : Summary}

theorem outcomes (h : s.Tells records) : s.calls.toNat = s.successes.toNat + s.failures.toNat := by
  rw [h.calls, h.successes, h.failures, finished_eq]

theorem average_bounds (h : s.Tells records) :
    s.averageDuration.toNat * s.calls.toNat ≤ s.totalDuration.toNat ∧
      (s.calls ≠ 0 → s.totalDuration.toNat < (s.averageDuration.toNat + 1) * s.calls.toNat) ∧
      (s.calls = 0 → s.averageDuration = 0) := by
  refine ⟨?_, fun hSome => ?_, fun hNone => ?_⟩
  · rw [h.average, h.calls, h.total]
    exact Nat.div_mul_le_self _ _
  · have hPositive : 0 < finished records := by
      rw [← h.calls, Nat.pos_iff_ne_zero]
      exact fun hZero => hSome (UInt64.toNat_inj.1 hZero)
    rw [h.average, h.calls, h.total, Nat.mul_comm]
    exact Nat.lt_mul_div_succ _ hPositive
  · rw [← UInt64.toNat_inj, h.average, ← h.calls, hNone]
    exact Nat.div_zero _

end Tells

theorem tells_exact (h : Fits records) (deckId : String) :
    (exact deckId records).Tells records where
  calls := UInt64.toNat_ofNat_of_lt' h.1
  successes := UInt64.toNat_ofNat_of_lt' (h.ended_lt true)
  failures := UInt64.toNat_ofNat_of_lt' (h.ended_lt false)
  total := UInt64.toNat_ofNat_of_lt' h.2
  average := UInt64.toNat_ofNat_of_lt' (Nat.lt_of_le_of_lt (Nat.div_le_self _ _) h.2)

theorem tells_of_ofRecords {s : Summary} (h : ofRecords deckId records = some s) :
    s.Tells records := by
  obtain ⟨hFits, rfl⟩ := ofRecords_eq_some_iff.1 h
  exact tells_exact hFits deckId

/-- There is a summary, and it tells the calls, the total and the average. -/
def Exact (deckId : String) (records : List CallRecord) : Prop :=
  ∃ s, ofRecords deckId records = some s ∧ s.Tells records

/-- **Exact summaries.** There is an exact summary if and only if the number of calls that have ended
and the sum of their durations fit into 64 bits. Otherwise there is none at all. -/
theorem exact_iff (deckId : String) (records : List CallRecord) :
    (Exact deckId records ↔ finished records < 2 ^ 64 ∧ duration records < 2 ^ 64) ∧
      (¬ Exact deckId records → ofRecords deckId records = none) := by
  constructor
  · constructor
    · rintro ⟨s, hSome, -⟩
      exact (ofRecords_eq_some_iff.1 hSome).1
    · intro hFits
      exact ⟨_, ofRecords_eq_some_iff.2 ⟨hFits, rfl⟩, tells_exact hFits deckId⟩
  · intro hNot
    rw [Option.eq_none_iff_forall_ne_some]
    intro s hSome
    exact hNot ⟨s, hSome, tells_of_ofRecords hSome⟩

/-- The record of a successful call of the given duration. -/
def timed (duration : UInt64) : CallRecord :=
  { id := "", deckId := "d", model := "m", startedAt := ⟨0, 0, 0⟩, duration := some duration
    success := some true }

/-- The durations of two calls that make one more than a word holds. -/
theorem not_exact :
    ofRecords "d" [timed 9223372036854775808, timed 9223372036854775808] = none ∧
      ¬ Exact "d" [timed 9223372036854775808, timed 9223372036854775808] := by
  have hNone : ofRecords "d" [timed 9223372036854775808, timed 9223372036854775808] = none := by
    decide
  refine ⟨hNone, ?_⟩
  rintro ⟨s, hSome, -⟩
  rw [hNone] at hSome
  cases hSome

end Summary

/-! ## The queries of an engine -/

namespace Engine

/-- The members of a list by their keys: each of them comes with its own key. -/
theorem flatMap_filter_perm {α κ : Type} [DecidableEq κ] (key : α → κ) (list : List α)
    {keys : List κ} (hNodup : keys.Nodup) :
    (keys.flatMap fun k => list.filter (key · = k)).Perm (list.filter (key · ∈ keys)) := by
  induction keys with
  | nil => simp
  | cons k rest ih =>
      obtain ⟨hNew, hRest⟩ := List.nodup_cons.1 hNodup
      have hOwn : (list.filter (key · ∈ k :: rest)).filter (key · = k) =
          list.filter (key · = k) := by
        rw [List.filter_filter]
        apply List.filter_congr
        intro x _
        by_cases hKey : key x = k <;> simp [hKey]
      have hOthers : (list.filter (key · ∈ k :: rest)).filter (fun x => !decide (key x = k)) =
          list.filter (key · ∈ rest) := by
        rw [List.filter_filter]
        apply List.filter_congr
        intro x _
        by_cases hKey : key x = k
        · simp [hKey, hNew]
        · simp [hKey]
      -- The members with the first key come first, and the others by induction.
      have hSplit := List.filter_append_perm (key · = k) (list.filter (key · ∈ k :: rest))
      rw [hOwn, hOthers] at hSplit
      rw [List.flatMap_cons]
      exact ((ih hRest).append_left _).trans hSplit

/-- How the queries of an engine fit together. -/
structure Consistent (e : Engine) : Prop where
  /-- The decks are those of the stored records, -/
  mem_deckIds : ∀ id, id ∈ e.deckIds ↔ ∃ r ∈ e.records, r.deckId = id
  /-- each of them once, -/
  nodup : e.deckIds.Nodup
  /-- in the order of their first records. -/
  inOrder : e.deckIds.Pairwise fun id later =>
    (e.records.map (·.deckId)).idxOf id < (e.records.map (·.deckId)).idxOf later
  /-- The records of all decks are together the stored ones, each of them once, -/
  perm : (e.deckIds.flatMap e.recordsFor).Perm e.records
  /-- those of a deck being its own, -/
  own : ∀ id, ∀ r ∈ e.recordsFor id, r.deckId = id
  /-- in the order in which they were stored. -/
  sublist : ∀ id, (e.recordsFor id).Sublist e.records
  /-- There is a summary of a deck if and only if the sum of its durations fits into 64 bits. -/
  summary_iff : ∀ id, (∃ s, e.summaryFor id = some s) ↔ duration (e.recordsFor id) < 2 ^ 64
  /-- The calls of a summary are the finished ones of the deck, and each succeeded or failed. -/
  calls : ∀ id s, e.summaryFor id = some s →
    s.calls.toNat = e.records.countP (fun r => r.deckId = id && r.isFinished) ∧
    s.calls.toNat = s.successes.toNat + s.failures.toNat
  /-- The total is the sum of the durations, -/
  total : ∀ id s, e.summaryFor id = some s →
    s.totalDuration.toNat = duration (e.recordsFor id)
  /-- and the average is the total divided by the calls, rounded down; it is 0 without calls. -/
  average : ∀ id s, e.summaryFor id = some s →
    s.averageDuration.toNat * s.calls.toNat ≤ s.totalDuration.toNat ∧
    (s.calls ≠ 0 → s.totalDuration.toNat < (s.averageDuration.toNat + 1) * s.calls.toNat) ∧
    (s.calls = 0 → s.averageDuration = 0)
  /-- The summaries of all decks count every finished call. -/
  sum_calls : ∀ summary : String → Summary,
    (∀ id ∈ e.deckIds, e.summaryFor id = some (summary id)) →
    (e.deckIds.map fun id => (summary id).calls.toNat).sum =
      e.records.countP CallRecord.isFinished

theorem length_recordsFor_le (e : Engine) (id : String) :
    (e.recordsFor id).length ≤ e.count := by
  rw [count_eq]
  exact List.length_filter_le _ _

/-- An engine is consistent as long as its records can be counted in a word. -/
theorem consistent_of_count {e : Engine} (h : e.count < 2 ^ 64) : e.Consistent := by
  have hFew (id : String) : finished (e.recordsFor id) < 2 ^ 64 :=
    Nat.lt_of_le_of_lt ((finished_le_length _).trans (e.length_recordsFor_le id)) h
  have hMem (id : String) : id ∈ e.deckIds ↔ ∃ r ∈ e.records, r.deckId = id := by
    rw [deckIds, mem_withoutRepeats, List.mem_map]
  have hOrder := pairwise_withoutRepeats (e.records.map (·.deckId))
  have hNodup : e.deckIds.Nodup := hOrder.imp fun hLess hSame => by
    rw [hSame] at hLess
    exact Nat.lt_irrefl _ hLess
  have hPerm : (e.deckIds.flatMap e.recordsFor).Perm e.records := by
    have hAll : e.records.filter (·.deckId ∈ e.deckIds) = e.records :=
      List.filter_eq_self.2 fun r hr => by simpa using (hMem r.deckId).2 ⟨r, hr, rfl⟩
    have hGroups := flatMap_filter_perm CallRecord.deckId e.records hNodup
    rwa [hAll] at hGroups
  have hTells {id : String} {s : Summary} (hSome : e.summaryFor id = some s) :
      s.Tells (e.recordsFor id) := Summary.tells_of_ofRecords hSome
  refine
    { mem_deckIds := hMem
      nodup := hNodup
      inOrder := hOrder
      perm := hPerm
      own := fun id r hr => by simpa using (List.mem_filter.1 hr).2
      sublist := fun id => List.filter_sublist
      summary_iff := fun id => ?_
      calls := fun id s hSome => ⟨?_, (hTells hSome).outcomes⟩
      total := fun id s hSome => (hTells hSome).total
      average := fun id s hSome => (hTells hSome).average_bounds
      sum_calls := fun summary hAll => ?_ }
  · simp only [summaryFor, Summary.ofRecords_eq_some_iff, exists_and_left, exists_eq, and_true]
    exact and_iff_right (hFew id)
  · rw [(hTells hSome).calls, finished, recordsFor, List.countP_filter]
    exact List.countP_congr fun r _ => by simp [and_comm]
  · have hCount := hPerm.countP_eq CallRecord.isFinished
    rw [List.countP_flatMap] at hCount
    rw [← hCount]
    exact congrArg List.sum (List.map_congr_left fun id hId => (hTells (hAll id hId)).calls)

/-- **The queries of an engine.** After any records and clearings the list of decks, the records of
each deck and the summaries of the decks fit together, and a summary does not depend on the order
of the records. -/
theorem consistent_run (changes : List Change) :
    (run changes).Consistent ∧
      ∀ deckId records other, records.Perm other →
        Summary.ofRecords deckId records = Summary.ofRecords deckId other := by
  refine ⟨consistent_of_count ?_, fun deckId records other h => Summary.ofRecords_perm h deckId⟩
  have hFull : (run changes).count ≤ capacity := by
    rw [(retains_run changes).count]
    exact kept_le_capacity _
  exact Nat.lt_of_le_of_lt hFull (by decide)

end Engine

end Deckwright.Telemetry
