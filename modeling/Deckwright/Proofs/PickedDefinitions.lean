import Deckwright.Proofs.Restriction
import Deckwright.Proofs.TableKeys

/-!
# The definitions that a fragment picks

A fragment picks one definition of a TOML file, the first of its name. The embed of the whole file
comes to the definitions of a name another way, by merging all of them into the deck, where the
last one counts. Variables and samples are the entries of tables, so there is only one of each name
(`Definitions.distinct_of_read?`), and the two ways agree. Tools are elements of an array.

* `Definitions.select?_of_unique`: what a fragment picks, if its name is that of one kind of
  definitions.
* `only_declare_picked`, `only_declare_picked_other`: what is picked declares under its own name
  what the whole file does, if the first and the last tool of the name are the same, and under
  other names nothing.
-/

namespace Deckwright

/-! ## The definitions of a file -/

/-- What all results of a function keep of its arguments, the results for a list keep. -/
theorem map_eq_of_mapM_ok {ε α β γ : Type} {f : α → Except ε β} {key : β → γ} {own : α → γ}
    (hResult : ∀ a b, f a = .ok b → key b = own a) {list : List α} {results : List β}
    (h : list.mapM f = .ok results) : results.map key = list.map own := by
  induction list generalizing results with
  | nil =>
      rw [List.mapM_nil] at h
      cases h
      rfl
  | cons a rest ih =>
      rw [List.mapM_cons, bind_eq_ok] at h
      obtain ⟨b, hFirst, hMore⟩ := h
      obtain ⟨others, hRest, hResults⟩ := bind_eq_ok.1 hMore
      cases hResults
      rw [List.map_cons, List.map_cons, hResult a b hFirst, ih hRest]

/-- Of elements with different keys no two have the same one. -/
theorem filter_key_eq {α κ : Type} [DecidableEq κ] {key : α → κ} {list : List α}
    (h : (list.map key).Nodup) (k : κ) :
    list.filter (fun x => key x = k) = (list.find? fun x => key x = k).toList := by
  induction list with
  | nil => rfl
  | cons x rest ih =>
      obtain ⟨hNew, hRest⟩ := List.nodup_cons.1 h
      by_cases hKey : key x = k
      · have hNone : rest.filter (fun y => key y = k) = [] := by
          rw [List.filter_eq_nil_iff]
          intro y hMem hSame
          rw [decide_eq_true_eq] at hSame
          exact hNew (List.mem_map.2 ⟨y, hMem, hSame.trans hKey.symm⟩)
        rw [List.filter_cons_of_pos (by simpa using hKey), hNone,
          List.find?_cons_of_pos (by simpa using hKey)]
        rfl
      · rw [List.filter_cons_of_neg (by simpa using hKey), ih hRest,
          List.find?_cons_of_neg (by simpa using hKey)]

namespace Definitions

/-- The kinds of definitions. -/
inductive Kind where
  | context
  | sample
  | tool
  deriving DecidableEq

/-- There is a definition of the kind that has the name. -/
def Declares (all : Definitions) (name : String) : Kind → Prop
  | .context => ∃ v ∈ all.context, v.name = name
  | .sample => ∃ s ∈ all.samples, s.id = some name
  | .tool => ∃ tool ∈ all.tools, tool.name = name

/-- All definitions of the name. -/
def named (all : Definitions) (name : String) : Definitions where
  context := all.context.filter fun v => v.name = name
  samples := all.samples.filter fun s => s.id = some name
  tools := all.tools.filter fun tool => tool.name = name

/-- All definitions of the name, but of the tools the first one only. -/
def picked (all : Definitions) (name : String) : Definitions :=
  { all.named name with tools := (all.named name).tools.head?.toList }

/-- No two variables have one name, nor do two samples, and every sample has one. -/
structure Distinct (all : Definitions) : Prop where
  context : (all.context.map ContextVariable.name).Nodup
  samples : (all.samples.map Sample.id).Nodup
  identified : ∀ s ∈ all.samples, ∃ id, s.id = some id

theorem nodup_keys_of_table? {top : Toml.Entries} {name : String} {entries : Toml.Entries}
    (hTop : ∀ entry ∈ top, entry.2.Distinct) (h : table? top name = .ok entries) :
    (entries.map Prod.fst).Nodup := by
  unfold table? at h
  split at h
  · cases h
    exact List.nodup_nil
  · rename_i found hFound
    cases h
    exact hTop (name, .table entries) (Toml.mem_of_lookup hFound)
  · cases h

theorem eq_ok_of_shaped {α : Type} {found : Option α} {value : α} (h : shaped found = .ok value) :
    found = some value := by
  cases found with
  | none => cases h
  | some own => exact congrArg some (Except.ok.inj h)

theorem name_of_contextFrom? {name : String} {value : Toml} {v : ContextVariable}
    (h : contextFrom? name value = some v) : v.name = name := by
  unfold contextFrom? at h
  obtain ⟨fields, -, h⟩ := Option.bind_eq_some_iff.1 h
  obtain ⟨kind, -, h⟩ := Option.bind_eq_some_iff.1 h
  obtain ⟨question, -, h⟩ := Option.bind_eq_some_iff.1 h
  obtain ⟨description, -, h⟩ := Option.bind_eq_some_iff.1 h
  obtain ⟨default, -, h⟩ := Option.bind_eq_some_iff.1 h
  cases h
  rfl

theorem id_of_sample? {id : String} {value : Toml} {s : Sample} (h : sample? id value = .ok s) :
    s.id = some id := by
  unfold sample? at h
  split at h
  · cases h
  · split at h
    · cases h
      rfl
    · cases h

/-- The tables of a file give each name to one variable and to one sample. -/
theorem distinct_of_read? {text : String} {all : Definitions} (h : read? text = .ok all) :
    all.Distinct := by
  have hDeclared := declared_of_read? h
  simp only [read?, bind_eq_ok] at h
  obtain ⟨top, hTop, slots, hSlots, context, hContext, entries, hEntries, samples, hSamples, items,
    -, tools, -, hAll⟩ := h
  cases hAll
  have hTables := (Toml.distinct_of_read? (eq_ok_of_shaped hTop)).2
  refine ⟨?_, ?_, fun s hMem => (hDeclared s hMem).named⟩
  · have hNames : context.map ContextVariable.name = slots.map Prod.fst :=
      map_eq_of_mapM_ok (fun _ _ h => name_of_contextFrom? (eq_ok_of_shaped h)) hContext
    rw [hNames]
    exact nodup_keys_of_table? hTables hSlots
  · have hIds : samples.map Sample.id = (entries.map Prod.fst).map some := by
      rw [List.map_map]
      exact map_eq_of_mapM_ok (fun _ _ h => id_of_sample? h) hSamples
    rw [hIds]
    exact (nodup_keys_of_table? hTables hEntries).map fun _ _ h => Option.some.inj h

/-! ## What a fragment picks -/

variable {all : Definitions} {name : String}

theorem declares_context_iff :
    all.Declares name .context ↔ (all.context.find? fun v => v.name = name).isSome := by
  simp [Declares]

theorem declares_sample_iff :
    all.Declares name .sample ↔ (all.samples.find? fun s => s.id = some name).isSome := by
  simp [Declares]

theorem declares_tool_iff :
    all.Declares name .tool ↔ (all.tools.find? fun tool => tool.name = name).isSome := by
  simp [Declares]

/-- What a fragment picks of the definitions of its name, if these are of one kind: the variable or
the sample, of which there is only one, or the first tool. -/
theorem select?_of_unique (hDistinct : all.Distinct) (hKind : ∃! kind, all.Declares name kind) :
    all.select? name = some (all.picked name) := by
  have hContext := filter_key_eq hDistinct.context name
  have hSamples := filter_key_eq hDistinct.samples (some name)
  simp only [picked, named, hContext, hSamples, List.head?_filter]
  obtain ⟨kind, hHas, hOnly⟩ := hKind
  have hOther : ∀ other, other ≠ kind → ¬ all.Declares name other := fun other hNot hDeclares =>
    hNot (hOnly other hDeclares)
  have hNoContext := hOther .context
  have hNoSample := hOther .sample
  have hNoTool := hOther .tool
  rw [declares_context_iff, Option.not_isSome_iff_eq_none] at hNoContext
  rw [declares_sample_iff, Option.not_isSome_iff_eq_none] at hNoSample
  rw [declares_tool_iff, Option.not_isSome_iff_eq_none] at hNoTool
  cases kind with
  | context =>
      obtain ⟨v, hFind⟩ := Option.isSome_iff_exists.1 (declares_context_iff.1 hHas)
      rw [select?, hFind, hNoSample nofun, hNoTool nofun]
      rfl
  | sample =>
      obtain ⟨s, hFind⟩ := Option.isSome_iff_exists.1 (declares_sample_iff.1 hHas)
      rw [select?, hNoContext nofun, hFind, hNoTool nofun]
      rfl
  | tool =>
      obtain ⟨tool, hFind⟩ := Option.isSome_iff_exists.1 (declares_tool_iff.1 hHas)
      rw [select?, hNoContext nofun, hNoSample nofun, hFind]
      rfl

theorem keptSamples_eq (h : all.Distinct) :
    keptSamples (· = name) all.samples = (all.named name).samples := by
  apply List.filter_congr
  intro s hMem
  obtain ⟨id, hId⟩ := h.identified s hMem
  simp [hId]

theorem name_of_mem_tools_named {tool : Tool} (h : tool ∈ (all.named name).tools) :
    tool.name = name :=
  of_decide_eq_true (List.mem_filter.1 h).2

theorem name_of_mem_tools_picked {tool : Tool} (h : tool ∈ (all.picked name).tools) :
    tool.name = name :=
  name_of_mem_tools_named (List.mem_of_mem_head? (Option.mem_toList.1 h))

/-- Among the entries of its own name nothing is lost of what is picked. -/
theorem kept_picked (all : Definitions) (name : String) :
    keptContext (· = name) (all.picked name).context = (all.named name).context ∧
      keptSamples (· = name) (all.picked name).samples = (all.named name).samples ∧
      keptTools (· = name) (all.picked name).tools = (all.picked name).tools := by
  refine ⟨?_, ?_, ?_⟩
  · exact List.filter_eq_self.2 fun v hMem => (List.mem_filter.1 hMem).2
  · refine List.filter_eq_self.2 fun s hMem => ?_
    have hName := (List.mem_filter.1 hMem).2
    rw [decide_eq_true_eq] at hName
    simp [hName]
  · exact List.filter_eq_self.2 fun tool hMem => decide_eq_true (name_of_mem_tools_picked hMem)

/-- Among the entries of other names nothing is there of what is picked. -/
theorem kept_picked_other (all : Definitions) (name : String) :
    keptContext (· ≠ name) (all.picked name).context = [] ∧
      keptSamples (· ≠ name) (all.picked name).samples = [] ∧
      keptTools (· ≠ name) (all.picked name).tools = [] := by
  refine ⟨?_, ?_, ?_⟩
  · refine List.filter_eq_nil_iff.2 fun v hMem => ?_
    simpa using (List.mem_filter.1 hMem).2
  · refine List.filter_eq_nil_iff.2 fun s hMem => ?_
    have hName := (List.mem_filter.1 hMem).2
    rw [decide_eq_true_eq] at hName
    simp [hName]
  · refine List.filter_eq_nil_iff.2 fun tool hMem => ?_
    simpa using name_of_mem_tools_picked hMem

end Definitions

/-! ## What is declared of it -/

namespace Document

/-- Of several tools of one name only the last one is left. -/
theorem mergeTools_of_named {name : String} {more : List Tool} (h : ∀ tool ∈ more, tool.name = name)
    (tools : List Tool) :
    more.foldl mergeTool tools = more.getLast?.toList.foldl mergeTool tools := by
  induction more generalizing tools with
  | nil => rfl
  | cons tool rest ih =>
      have hRest : ∀ other ∈ rest, other.name = name := fun other hMem =>
        h other (List.mem_cons_of_mem tool hMem)
      rw [List.foldl_cons, ih hRest]
      cases hLast : rest.getLast? with
      | none => simp [List.getLast?_eq_none_iff.1 hLast]
      | some last =>
          have hName : tool.name = last.name :=
            (h tool List.mem_cons_self).trans (hRest last (List.mem_of_getLast? hLast)).symm
          rw [List.getLast?_cons, hLast]
          show mergeTool (mergeTool tools tool) last = mergeTool tools last
          rw [mergeTool_eq]
          exact Tool.overwrites.mergeBy_mergeBy_put hName tools

variable {all : Definitions} {name : String}

/-- What is picked of a file declares the same under its name as the whole file, where the first
and the last tool of the name are the same. -/
theorem only_declare_picked (hDistinct : all.Distinct)
    (hTools : (all.named name).tools.head? = (all.named name).tools.getLast?) (draft : Draft) :
    (draft.declare (all.picked name).context (all.picked name).tools
        (all.picked name).samples).only (· = name) =
      (draft.declare all.context all.tools all.samples).only (· = name) := by
  obtain ⟨hContext, hSamples, hPicked⟩ := all.kept_picked name
  have hNamed : keptTools (· = name) all.tools = (all.named name).tools := rfl
  have hLast := mergeTools_of_named fun tool (hMem : tool ∈ (all.named name).tools) =>
    Definitions.name_of_mem_tools_named hMem
  rw [Draft.only_declare, Draft.only_declare, hContext, hSamples, hPicked,
    Definitions.keptSamples_eq hDistinct, hNamed]
  simp only [Draft.declare, hLast, ← hTools]
  rfl

/-- What is picked of a file declares nothing under other names. -/
theorem only_declare_picked_other (all : Definitions) (name : String) (draft : Draft) :
    (draft.declare (all.picked name).context (all.picked name).tools
        (all.picked name).samples).only (· ≠ name) = draft.only (· ≠ name) := by
  obtain ⟨hContext, hSamples, hTools⟩ := all.kept_picked_other name
  rw [Draft.only_declare, hContext, hSamples, hTools]
  simp [Draft.declare]

end Document

end Deckwright
