import Mathlib.Data.List.Nodup
import Mathlib.Data.Nat.Basic
import Deckwright.Toml.Reader

/-!
# The keys of tables

No table of a TOML document has two entries of one name, however its entries come about: by
headers, by dotted keys or between braces. A table under construction is `Distinct` if its keys are
and if all that it holds is; putting an entry into it and taking one out keep that, and so does
every statement (`Draft.Distinct.add`).

Main result: `distinct_of_read?`, for the tables that stand at the top of a document or directly in
it.
-/

namespace Deckwright.Toml

/-! ## Tables under construction -/

/-- A value is no table with two entries of one name. -/
def Distinct : Toml → Prop
  | .table entries => (entries.map Prod.fst).Nodup
  | _ => True

theorem mem_of_lookup {α : Type} {name : String} {value : α} {entries : List (String × α)}
    (h : entries.lookup name = some value) : (name, value) ∈ entries := by
  obtain ⟨before, after, rfl, -⟩ := List.lookup_eq_some_iff.1 h
  exact List.mem_append_right before List.mem_cons_self

/-- What a key stands for holds no table with two entries of one name. -/
inductive Item.Distinct : Item → Prop where
  | value {v : Toml} (h : v.Distinct) : Item.Distinct (.value v)
  | table {origin : Origin} {entries : Slots} (hKeys : (entries.map Prod.fst).Nodup)
      (h : ∀ slot ∈ entries, Item.Distinct slot.2) : Item.Distinct (.table origin entries)
  | tables {elements : List Slots} (hKeys : ∀ entries ∈ elements, (entries.map Prod.fst).Nodup)
      (h : ∀ entries ∈ elements, ∀ slot ∈ entries, Item.Distinct slot.2) :
      Item.Distinct (.tables elements)

namespace Slots

/-- No table, this one included, has two entries of one name. -/
structure Distinct (slots : Slots) : Prop where
  keys : (slots.map Prod.fst).Nodup
  items : ∀ slot ∈ slots, slot.2.Distinct

theorem distinct_nil : Distinct [] :=
  ⟨List.nodup_nil, fun _ hMem => absurd hMem List.not_mem_nil⟩

theorem mem_put {name : String} {item : Item} {slots : Slots} {slot : String × Item}
    (h : slot ∈ slots.put name item) : slot = (name, item) ∨ slot ∈ slots := by
  induction slots with
  | nil => exact .inl (List.mem_singleton.1 h)
  | cons first rest ih =>
      obtain ⟨n, i⟩ := first
      rw [put] at h
      split at h
      · exact (List.mem_cons.1 h).imp_right (List.mem_cons_of_mem _)
      · rcases List.mem_cons.1 h with rfl | hRest
        · exact .inr List.mem_cons_self
        · exact (ih hRest).imp_right (List.mem_cons_of_mem _)

theorem nodup_put {slots : Slots} (h : (slots.map Prod.fst).Nodup) (name : String) (item : Item) :
    ((slots.put name item).map Prod.fst).Nodup := by
  induction slots with
  | nil => exact List.nodup_singleton name
  | cons first rest ih =>
      obtain ⟨n, i⟩ := first
      obtain ⟨hNew, hRest⟩ := List.nodup_cons.1 h
      rw [put]
      split
      · rename_i hName
        subst hName
        exact h
      · rename_i hName
        refine List.nodup_cons.2 ⟨fun hMem => ?_, ih hRest⟩
        obtain ⟨slot, hSlot, hKey⟩ := List.mem_map.1 hMem
        rcases mem_put hSlot with rfl | hOld
        · exact hName hKey.symm
        · exact hNew (List.mem_map.2 ⟨slot, hOld, hKey⟩)

variable {slots : Slots} {name : String} {item : Item}

theorem Distinct.put (h : slots.Distinct) (name : String) (hItem : item.Distinct) :
    (slots.put name item).Distinct where
  keys := nodup_put h.keys name item
  items := fun slot hMem => by
    rcases mem_put hMem with rfl | hOld
    · exact hItem
    · exact h.items slot hOld

theorem Distinct.remove (h : slots.Distinct) (name : String) : (slots.remove name).Distinct where
  keys := h.keys.sublist (List.filter_sublist.map Prod.fst)
  items := fun slot hMem => h.items slot (List.mem_filter.1 hMem).1

theorem Distinct.of_get? (h : slots.Distinct) (hGet : slots.get? name = some item) :
    item.Distinct :=
  h.items (name, item) (mem_of_lookup hGet)

end Slots

namespace Item

theorem distinct_table_iff {origin : Origin} {entries : Slots} :
    (Item.table origin entries).Distinct ↔ entries.Distinct :=
  ⟨fun h => by cases h with | table hKeys h => exact ⟨hKeys, h⟩, fun h => .table h.keys h.items⟩

theorem distinct_tables_iff {elements : List Slots} :
    (Item.tables elements).Distinct ↔ ∀ entries ∈ elements, entries.Distinct :=
  ⟨fun h => by cases h with | tables hKeys h => exact fun e hMem => ⟨hKeys e hMem, h e hMem⟩,
    fun h => .tables (fun e hMem => (h e hMem).keys) fun e hMem => (h e hMem).items⟩

/-- The keys of a finished table are those that it was built with. -/
theorem map_fst_entriesOf (slots : Slots) :
    (entriesOf slots).map Prod.fst = slots.map Prod.fst := by
  induction slots with
  | nil => rfl
  | cons slot rest ih =>
      obtain ⟨name, item⟩ := slot
      rw [entriesOf, List.map_cons, List.map_cons, ih]

theorem exists_of_mem_entriesOf {slots : Slots} {entry : String × Toml}
    (h : entry ∈ entriesOf slots) : ∃ slot ∈ slots, entry = (slot.1, slot.2.toToml) := by
  induction slots with
  | nil => cases h
  | cons slot rest ih =>
      obtain ⟨name, item⟩ := slot
      rw [entriesOf] at h
      rcases List.mem_cons.1 h with rfl | hRest
      · exact ⟨_, List.mem_cons_self, rfl⟩
      · obtain ⟨slot, hMem, rfl⟩ := ih hRest
        exact ⟨slot, List.mem_cons_of_mem _ hMem, rfl⟩

/-- A finished entry is no table with two entries of one name. -/
theorem Distinct.toToml {item : Item} (h : item.Distinct) : item.toToml.Distinct := by
  cases h with
  | value h => exact h
  | @table origin entries hKeys _ =>
      rw [Item.toToml, Toml.Distinct, map_fst_entriesOf]
      exact hKeys
  | tables _ _ => exact trivial

end Item

/-- A change that keeps the keys of every table distinct does so at the end of any path. -/
theorem distinct_descend {made : Origin} {act : Origin → Slots → Option Slots}
    (hAct : ∀ origin slots changed, slots.Distinct → act origin slots = some changed →
      changed.Distinct)
    {path : List String} {origin : Origin} {slots changed : Slots} (h : slots.Distinct)
    (hDescend : descend made act path origin slots = some changed) : changed.Distinct := by
  induction path generalizing origin slots changed with
  | nil => exact hAct origin slots changed h hDescend
  | cons key path ih =>
      rw [descend] at hDescend
      split at hDescend
      · obtain ⟨inner, hInner, hPut⟩ := Option.bind_eq_some_iff.1 hDescend
        obtain rfl := Option.some.inj hPut
        exact h.put key (Item.distinct_table_iff.2 (ih Slots.distinct_nil hInner))
      · cases hDescend
      · rename_i found entries hGet
        have hEntries := Item.distinct_table_iff.1 (h.of_get? hGet)
        split at hDescend
        · cases hDescend
        · obtain ⟨inner, hInner, hPut⟩ := Option.bind_eq_some_iff.1 hDescend
          obtain rfl := Option.some.inj hPut
          exact h.put key (Item.distinct_table_iff.2 (ih hEntries hInner))
      · rename_i elements hGet
        have hElements := Item.distinct_tables_iff.1 (h.of_get? hGet)
        split at hDescend
        · cases hDescend
        · rename_i last hLast
          obtain ⟨inner, hInner, hPut⟩ := Option.bind_eq_some_iff.1 hDescend
          obtain rfl := Option.some.inj hPut
          refine h.put key (Item.distinct_tables_iff.2 fun entries hMem => ?_)
          rcases List.mem_append.1 hMem with hOld | hNew
          · exact hElements entries (List.dropLast_subset _ hOld)
          · obtain rfl := List.mem_singleton.1 hNew
            exact ih (hElements last (List.mem_of_getLast? hLast)) hInner

/-- A dotted key puts one entry into the table. -/
theorem exists_put_of_assign {path : List String} {key : String} {value : Toml}
    {slots changed : Slots} (h : assign path key value slots = some changed) :
    ∃ name item, changed = slots.put name item := by
  cases path with
  | nil =>
      simp only [assign, descend, List.isEmpty_nil, Bool.true_or, if_true, define] at h
      split at h
      · exact ⟨key, _, (Option.some.inj h).symm⟩
      · cases h
  | cons first path =>
      rw [assign, descend] at h
      split at h
      · obtain ⟨inner, -, hPut⟩ := Option.bind_eq_some_iff.1 h
        exact ⟨first, _, (Option.some.inj hPut).symm⟩
      · cases h
      · split at h
        · cases h
        · obtain ⟨inner, -, hPut⟩ := Option.bind_eq_some_iff.1 h
          exact ⟨first, _, (Option.some.inj hPut).symm⟩
      · split at h
        · cases h
        · obtain ⟨inner, -, hPut⟩ := Option.bind_eq_some_iff.1 h
          exact ⟨first, _, (Option.some.inj hPut).symm⟩

theorem distinct_assign {path : List String} {key : String} {value : Toml} {slots changed : Slots}
    (h : slots.Distinct) (hValue : value.Distinct)
    (hAssign : assign path key value slots = some changed) : changed.Distinct := by
  refine distinct_descend (fun origin found last hFound hAct => ?_) h hAssign
  split at hAct
  · rw [define] at hAct
    split at hAct
    · obtain rfl := Option.some.inj hAct
      exact hFound.put key (.value hValue)
    · cases hAct
  · cases hAct

/-- What every step of a run keeps holds at its end. -/
theorem foldlM_induct {σ α : Type} {step : σ → α → Option σ} {P : σ → Prop} {list : List α}
    (hStep : ∀ s a next, a ∈ list → P s → step s a = some next → P next) {s last : σ} (h : P s)
    (hRun : list.foldlM step s = some last) : P last := by
  induction list generalizing s with
  | nil =>
      obtain rfl := Option.some.inj hRun
      exact h
  | cons a rest ih =>
      rw [List.foldlM_cons] at hRun
      obtain ⟨next, hNext, hRest⟩ := Option.bind_eq_some_iff.1 hRun
      exact ih (fun s b next hMem => hStep s b next (List.mem_cons_of_mem a hMem))
        (hStep s a next List.mem_cons_self h hNext) hRest

/-- A table between braces has distinct keys. -/
theorem distinct_inlineTable? {pairs : List (List String × String × Toml)} {table : Toml}
    (h : inlineTable? pairs = some table) : table.Distinct := by
  obtain ⟨slots, hSlots, hTable⟩ := Option.bind_eq_some_iff.1 h
  obtain rfl := Option.some.inj hTable
  rw [Distinct, Item.map_fst_entriesOf]
  have hNil : (([] : Slots).map Prod.fst).Nodup := List.nodup_nil
  refine foldlM_induct (P := fun slots : Slots => (slots.map Prod.fst).Nodup) ?_ hNil hSlots
  rintro slots ⟨path, key, value⟩ next - hKeys hAssign
  obtain ⟨name, item, rfl⟩ := exists_put_of_assign hAssign
  exact Slots.nodup_put hKeys name item

/-! ## Statements -/

/-- The value of a statement is no table with two entries of one name. -/
def Statement.Distinct : Statement → Prop
  | .assign _ _ value => value.Distinct
  | _ => True

namespace Draft

/-- No table of the document so far has two entries of one name. -/
structure Distinct (draft : Draft) : Prop where
  root : draft.root.Distinct
  current : draft.current.Distinct

variable {draft next : Draft}

theorem Distinct.finish {slots : Slots} (h : draft.Distinct) (hFinish : draft.finish = some slots) :
    slots.Distinct := by
  rw [Draft.finish] at hFinish
  split at hFinish
  · obtain rfl := Option.some.inj hFinish
    exact h.current
  · refine distinct_descend (fun origin found last hFound hAct => ?_) h.root hFinish
    obtain rfl := Option.some.inj hAct
    exact hFound.put _ (Item.distinct_table_iff.2 h.current)
  · refine distinct_descend (fun origin found last hFound hAct => ?_) h.root hFinish
    split at hAct
    · rename_i elements hGet
      have hElements := Item.distinct_tables_iff.1 (hFound.of_get? hGet)
      obtain rfl := Option.some.inj hAct
      refine hFound.put _ (Item.distinct_tables_iff.2 fun entries hMem => ?_)
      rcases List.mem_append.1 hMem with hOld | hNew
      · exact hElements entries hOld
      · exact List.mem_singleton.1 hNew ▸ h.current
    · obtain rfl := Option.some.inj hAct
      refine hFound.put _ (Item.distinct_tables_iff.2 fun entries hMem => ?_)
      exact List.mem_singleton.1 hMem ▸ h.current
    · cases hAct

theorem distinct_of_find? {path : List String} {key : String} {slots : Slots} {item : Item}
    (h : slots.Distinct) (hFind : find? path key slots = some item) : item.Distinct := by
  induction path generalizing slots with
  | nil => exact h.of_get? hFind
  | cons k path ih =>
      rw [find?] at hFind
      split at hFind
      · rename_i origin entries hGet
        exact ih (Item.distinct_table_iff.1 (h.of_get? hGet)) hFind
      · rename_i elements hGet
        obtain ⟨last, hLast, hInner⟩ := Option.bind_eq_some_iff.1 hFind
        have hElements := Item.distinct_tables_iff.1 (h.of_get? hGet)
        exact ih (hElements last (List.mem_of_getLast? hLast)) hInner
      · cases hFind

theorem Distinct.openTable {path : List String} {key : String} {root : Slots} (h : root.Distinct)
    (hOpen : Draft.openTable path key root = some next) : next.Distinct := by
  have hOpened : ∀ entries : Slots, entries.Distinct →
      ((descend .passed (fun _ slots => some (slots.remove key)) path .explicit root).bind
        fun left => some { root := left, target := .table path key, current := entries }) =
        some next → next.Distinct := fun entries hEntries hRest => by
    obtain ⟨left, hLeft, hNext⟩ := Option.bind_eq_some_iff.1 hRest
    obtain rfl := Option.some.inj hNext
    refine ⟨distinct_descend (fun origin found last hFound hAct => ?_) h hLeft, hEntries⟩
    obtain rfl := Option.some.inj hAct
    exact hFound.remove key
  rw [Draft.openTable] at hOpen
  split at hOpen
  · exact hOpened [] Slots.distinct_nil hOpen
  · rename_i entries hFind
    exact hOpened entries (Item.distinct_table_iff.1 (distinct_of_find? h hFind)) hOpen
  · cases hOpen

theorem Distinct.openElement {path : List String} {key : String} {root : Slots} (h : root.Distinct)
    (hOpen : Draft.openElement path key root = some next) : next.Distinct := by
  obtain ⟨left, hLeft, hNext⟩ := Option.bind_eq_some_iff.1 hOpen
  obtain rfl := Option.some.inj hNext
  refine ⟨distinct_descend (fun origin found last hFound hAct => ?_) h hLeft, Slots.distinct_nil⟩
  split at hAct
  · obtain rfl := Option.some.inj hAct
    exact hFound.put key (Item.distinct_tables_iff.2 fun _ hMem => absurd hMem List.not_mem_nil)
  · obtain rfl := Option.some.inj hAct
    exact hFound
  · cases hAct

/-- A statement keeps the keys of every table distinct. -/
theorem Distinct.add {statement : Statement} (h : draft.Distinct) (hValue : statement.Distinct)
    (hAdd : draft.add statement = some next) : next.Distinct := by
  cases statement with
  | assign path key value =>
      obtain ⟨current, hAssign, hNext⟩ := Option.bind_eq_some_iff.1 hAdd
      obtain rfl := Option.some.inj hNext
      exact ⟨h.root, distinct_assign h.current hValue hAssign⟩
  | table path key =>
      obtain ⟨slots, hFinish, hOpen⟩ := Option.bind_eq_some_iff.1 hAdd
      exact Distinct.openTable (h.finish hFinish) hOpen
  | element path key =>
      obtain ⟨slots, hFinish, hOpen⟩ := Option.bind_eq_some_iff.1 hAdd
      exact Distinct.openElement (h.finish hFinish) hOpen

end Draft

/-- The tables at the top of a document and directly in it have distinct keys. -/
theorem distinct_of_ofStatements? {statements : List Statement} {top : Entries}
    (hValues : ∀ statement ∈ statements, statement.Distinct)
    (h : ofStatements? statements = some top) :
    (top.map Prod.fst).Nodup ∧ ∀ entry ∈ top, entry.2.Distinct := by
  obtain ⟨draft, hRun, hFinish⟩ := Option.bind_eq_some_iff.1 h
  obtain ⟨slots, hSlots, hTop⟩ := Option.bind_eq_some_iff.1 hFinish
  obtain rfl := Option.some.inj hTop
  have hDraft : draft.Distinct := by
    refine foldlM_induct (fun draft statement next hMem hDraft hAdd => ?_)
      ⟨Slots.distinct_nil, Slots.distinct_nil⟩ hRun
    exact hDraft.add (hValues statement hMem) hAdd
  have hDistinct := hDraft.finish hSlots
  refine ⟨by rw [Item.map_fst_entriesOf]; exact hDistinct.keys, fun entry hMem => ?_⟩
  obtain ⟨slot, hSlot, rfl⟩ := Item.exists_of_mem_entriesOf hMem
  exact (hDistinct.items slot hSlot).toToml

/-! ## Reading -/

/-- What a reader takes off the front of a text is no table with two entries of one name. -/
def Sound {α : Type} (read : Option (Toml × α)) : Prop :=
  ∀ found ∈ read, found.1.Distinct

namespace Sound

variable {α β : Type}

theorem none : Sound (none : Option (Toml × α)) :=
  fun _ h => nomatch h

theorem some {value : Toml} {rest : α} (h : value.Distinct) : Sound (some (value, rest)) := by
  rintro found hFound
  obtain rfl := Option.some.inj hFound
  exact h

theorem bind {read : Option β} {next : β → Option (Toml × α)} (h : ∀ b ∈ read, Sound (next b)) :
    Sound (read.bind next) := by
  intro found hFound
  obtain ⟨b, hRead, hNext⟩ := Option.bind_eq_some_iff.1 hFound
  exact h b hRead found hNext

theorem map {read : Option β} {make : β → Toml × α} (h : ∀ b ∈ read, (make b).1.Distinct) :
    Sound (read.map make) := by
  intro found hFound
  obtain ⟨b, hRead, rfl⟩ := Option.map_eq_some_iff.1 hFound
  exact h b hRead

theorem ite {p : Prop} [Decidable p] {left right : Option (Toml × α)} (hLeft : Sound left)
    (hRight : Sound right) : Sound (if p then left else right) := by
  split
  · exact hLeft
  · exact hRight

theorem orElse {left right : Option (Toml × α)} (hLeft : Sound left) (hRight : Sound right) :
    Sound (left <|> right) := by
  cases left with
  | none => exact hRight
  | some found => exact hLeft

theorem shorter? {cs : List Char} {read : Option (Toml × List Char)} (h : Sound read) :
    Sound (shorter? cs read) := by
  intro found hFound
  cases read with
  | none => cases hFound
  | some first =>
      obtain ⟨value, rest⟩ := first
      obtain ⟨_, hFirst⟩ := Option.dite_none_right_eq_some.1 hFound
      obtain rfl := Option.some.inj hFirst
      exact h _ rfl

end Sound

theorem distinct_of_integer? {negative : Bool} {size : Nat} {value : Toml}
    (h : integer? negative size = some value) : value.Distinct := by
  obtain ⟨-, h⟩ := Option.ite_none_right_eq_some.1 h
  obtain rfl := Option.some.inj h
  exact trivial

theorem sound_basedInteger? (letter : Char) (cs : List Char) : Sound (basedInteger? letter cs) := by
  have hBase : ∀ base : Nat, Sound ((digits? (fun c => (Text.number? base [c]).isSome) cs).bind
      fun read => (Text.number? base read.1).bind fun size =>
        (integer? false size).bind fun value => Option.some (value, read.2)) := by
    refine fun base => .bind fun read _ => .bind fun size _ => .bind fun value hValue => ?_
    exact .some (distinct_of_integer? hValue)
  unfold basedInteger?
  dsimp only
  split
  · exact hBase 16
  · split
    · exact hBase 8
    · split
      · exact hBase 2
      · exact .none

/-- A number is no table: it comes with a sign, a base, a fraction or a power, or as a word. -/
theorem sound_number? (cs : List Char) : Sound (number? cs) := by
  have hBody : ∀ (negative : Bool) (read : Option (List Char × List Char)), Sound (read.bind
      fun whole => (fraction? whole.2).bind fun fraction => (power? fraction.2).bind fun power =>
        let x := nearest negative (Text.decimal (whole.1 ++ fraction.1))
          (power.1.getD 0 - fraction.1.length)
        if fraction.1.isEmpty && power.1.isNone then
          (integer? negative (Text.decimal whole.1)).bind fun value => Option.some (value, power.2)
        else if x = .infinite false then Option.none
        else Option.some (.float x, power.2)) := by
    refine fun negative read => .bind fun _ _ => .bind fun _ _ => .bind fun _ _ => .ite ?_ ?_
    · exact .bind fun value hValue => .some (distinct_of_integer? hValue)
    · exact .ite .none (.some trivial)
  unfold number?
  dsimp only
  split
  · exact .some trivial
  · split
    · exact .some trivial
    · split
      · split
        · exact sound_basedInteger? _ _
        · split
          · exact hBody _ (Option.some _)
          · exact hBody _ (digits? _ _)
      · split
        · exact hBody _ (Option.some _)
        · exact hBody _ (digits? _ _)

theorem sound_datetime? (cs : List Char) : Sound (datetime? cs) := by
  simp only [datetime?]
  split
  · split
    · split
      · split
        · exact .map fun _ _ => trivial
        · exact .some trivial
      · exact .some trivial
    · exact .some trivial
  · exact .map fun _ _ => trivial

theorem sound_scalar? (cs : List Char) : Sound (scalar? cs) := by
  simp only [scalar?]
  split
  · refine .ite (.map fun _ _ => trivial) (.ite (.map fun _ _ => trivial)
      (.ite (.map fun _ _ => trivial) ?_))
    exact .orElse (sound_datetime? _) (sound_number? _)
  · exact .none

theorem sound_value? (depth : Nat) (cs : List Char) : Sound (value? depth cs) := by
  unfold value?
  split
  · split
    · exact .none
    · exact .map fun _ _ => trivial
  · split
    · exact .none
    · split
      · exact .some List.nodup_nil
      · split
        · exact .map fun table hTable => distinct_inlineTable? hTable
        · exact .none
  · exact (sound_scalar? cs).shorter?

theorem distinct_of_statement? {cs rest : List Char} {statement : Statement}
    (h : statement? cs = some (statement, rest)) : statement.Distinct := by
  unfold statement? at h
  split at h
  · split at h
    · obtain ⟨rfl, -⟩ := Prod.mk.inj (Option.some.inj h)
      exact trivial
    · cases h
  · split at h
    · obtain ⟨rfl, -⟩ := Prod.mk.inj (Option.some.inj h)
      exact trivial
    · cases h
  · split at h
    · obtain ⟨found, hFound, hStatement⟩ := Option.map_eq_some_iff.1 h
      obtain ⟨rfl, -⟩ := Prod.mk.inj hStatement
      exact sound_value? _ _ found hFound
    · cases h

theorem distinct_of_line? {cs after : List Char} {statement : Statement}
    (h : line? cs = some (some statement, after)) : statement.Distinct := by
  simp only [line?] at h
  split at h
  · cases h
  · split at h
    · rename_i found rest hFound
      obtain ⟨_, -, hLine⟩ := Option.map_eq_some_iff.1 h
      obtain ⟨hStatement, -⟩ := Prod.mk.inj hLine
      obtain rfl := Option.some.inj hStatement
      exact distinct_of_statement? hFound
    · cases h

/-- The value of every statement of a text is no table with two entries of one name. -/
theorem distinct_of_statements? {cs : List Char} {statements : List Statement}
    (h : statements? cs = some statements) : ∀ statement ∈ statements, statement.Distinct := by
  induction hLength : cs.length using Nat.strongRecOn generalizing cs statements with
  | ind length ih =>
      rw [statements?] at h
      split at h
      · obtain rfl := Option.some.inj h
        exact fun _ hMem => absurd hMem List.not_mem_nil
      · split at h
        · cases h
        · rename_i line after hLine
          split at h
          · rename_i hShorter
            obtain ⟨others, hOthers, rfl⟩ := Option.map_eq_some_iff.1 h
            intro statement hMem
            rcases List.mem_append.1 hMem with hFirst | hOther
            · obtain rfl := Option.mem_toList.1 hFirst
              exact distinct_of_line? hLine
            · exact ih after.length (hLength ▸ hShorter) hOthers rfl statement hOther
          · cases h

/-- **Distinct keys.** In a document that is read no two entries at the top have one name, nor have
two entries of a table that stands there. -/
theorem distinct_of_read? {text : String} {top : Entries} (h : read? text = some top) :
    (top.map Prod.fst).Nodup ∧ ∀ entry ∈ top, entry.2.Distinct := by
  obtain ⟨statements, hStatements, hTop⟩ := Option.bind_eq_some_iff.1 h
  exact distinct_of_ofStatements? (distinct_of_statements? hStatements) hTop

end Deckwright.Toml
