import Deckwright.Proofs.BuiltContext
import Deckwright.Proofs.Everywhere

/-!
# Programs and their faults

A program is a list of calls on a builder, with programs for the bodies of its groups. Whether a
call of it is allowed can be read off the call alone. So a program has a list of faults, depth
first (`Call.faultsAll`), and what it makes can be said without a builder (`Call.nodesAll`,
`Call.scopeFrom`, `Call.toolsAll`).

* `perform_eq`: what one call does, without a fault and with one.
* `performAll_eq`, `performAll_of_fault`: what a whole run does, by induction on its calls and on
  the bodies of groups.
* `Call.sound_nodesAll`, `Call.scopeSound_scopeFrom`: what a program without faults makes is sound.

Main result: `run_outcome`. A program without faults builds the deck that it describes, and any
other one stops in front of its first call with a fault.
-/

namespace Deckwright

/-! ## Faults -/

/-- The error of a text that may not be blank. -/
def BuildError.ofBlank (e : BuildError) (text : String) : List BuildError :=
  if blank text then [e] else []

/-- The errors of samples whose score is out of range. -/
def Sample.faults (samples : List Sample) : List BuildError :=
  (samples.filter fun s => !s.scoreInRange).map fun s => .scoreOutOfRange s.text s.score.toInt

namespace Samples

/-- The samples of a leaf as they were given. -/
def entries : Samples → List Sample
  | list samples => samples
  | built b => b.samples

/-- What is wrong with the samples of a leaf. -/
def faults : Samples → List BuildError
  | list samples => Sample.faults samples
  | built b => b.error.toList ++ Sample.faults b.samples

end Samples

mutual

/-- What is wrong with a call, and with the calls inside of it. -/
def Call.faults : Call → List BuildError
  | .spec value => BuildError.emptyValue.ofBlank value
  | .specWith value samples => BuildError.emptyValue.ofBlank value ++ samples.faults
  | .lead text => BuildError.emptyLead.ofBlank text
  | .tool t => BuildError.emptyToolName.ofBlank t.name
  | .context slots => slots.flatMap fun (_, name, question) =>
      (BuildError.emptyContextName question).ofBlank name
  | .group name body => BuildError.emptyGroupName.ofBlank name ++ Call.faultsAll body

/-- What is wrong with the calls of a program, depth first. -/
def Call.faultsAll : List Call → List BuildError
  | [] => []
  | call :: rest => call.faults ++ Call.faultsAll rest

end

namespace SampleBuilder

/-- A sample as it is described by its text, its score and its details. -/
def sample : String × Int × SampleDetails → Sample
  | (text, score, details) =>
    { id := details.id, text, score := Int8.ofInt score, description := details.description
      userMessage := details.userMessage, assistantResponse := details.assistantResponse }

/-- What is wrong with the samples of a leaf that are given one by one. -/
def faults (given : List (String × Int × SampleDetails)) : List BuildError :=
  (given.filter fun (_, score, _) => !Sample.validScore score).map fun (text, score, _) =>
    .scoreOutOfRange text score

end SampleBuilder

/-! ## What a program describes -/

namespace Call

/-- The variables that a call declares behind the given number of nodes of its scope. -/
def declared (position : Nat) : Call → List ContextVariable
  | .context slots => slots.map fun (kind, name, question) => { name, kind, question, position }
  | _ => []

/-- The variables that calls declare in their own scope, which has the given number of nodes. -/
def scopeFrom (size : Nat) : List Call → List ContextVariable
  | [] => []
  | call :: rest => call.declared size ++ scopeFrom (size + call.size) rest

end Call

mutual

/-- The nodes that a call makes: one, or none if it makes something else. -/
def Call.nodes : Call → List Node
  | .spec value => [.leaf value []]
  | .specWith value samples => [.leaf value samples.entries]
  | .lead text => [.lead text]
  | .tool _ => []
  | .context _ => []
  | .group name body =>
    [.group { name, context := mergedContext (Call.scopeFrom 0 body) } (Call.nodesAll body)]

/-- The nodes that calls make, in their order. -/
def Call.nodesAll : List Call → List Node
  | [] => []
  | call :: rest => call.nodes ++ Call.nodesAll rest

end

mutual

/-- The tools that a call attaches. -/
def Call.tools : Call → List Tool
  | .tool t => [t]
  | .group _ body => Call.toolsAll body
  | _ => []

/-- The tools that calls attach, depth first. -/
def Call.toolsAll : List Call → List Tool
  | [] => []
  | call :: rest => call.tools ++ Call.toolsAll rest

end

theorem Call.length_nodes (call : Call) : call.nodes.length = call.size := by
  cases call <;> rfl

/-! ## Checks -/

/-- A value that is accepted if nothing is wrong with it; otherwise the first error. -/
def checked {α : Type} (faults : List BuildError) (value : α) : Except BuildError α :=
  match faults with
  | [] => .ok value
  | e :: _ => .error e

theorem checked_ofBlank_append {α : Type} (e : BuildError) (text : String)
    (more : List BuildError) (value : α) :
    checked (e.ofBlank text ++ more) value =
      if blank text then .error e else checked more value := by
  rw [BuildError.ofBlank]
  split <;> rfl

theorem checked_ofBlank {α : Type} (e : BuildError) (text : String) (value : α) :
    checked (e.ofBlank text) value = if blank text then .error e else .ok value := by
  rw [BuildError.ofBlank]
  split <;> rfl

theorem BuildError.ofBlank_eq_nil_iff {e : BuildError} {text : String} :
    e.ofBlank text = [] ↔ blank text = false := by
  rw [ofBlank]
  cases blank text <;> simp

theorem checked_scores (samples : List Sample) :
    (match scoreError? samples with
      | some e => .error e
      | none => .ok samples) = checked (Sample.faults samples) samples := by
  rw [scoreError?, ← List.head?_filter, ← List.head?_map, ← Sample.faults]
  cases Sample.faults samples <;> rfl

theorem Samples.toList_eq (samples : Samples) :
    samples.toList = checked samples.faults samples.entries := by
  cases samples with
  | list samples => exact checked_scores samples
  | built b =>
      rw [toList, given, faults, entries]
      cases b.error with
      | some e => rfl
      | none => exact checked_scores b.samples

theorem Sample.validScore_iff {score : Int} : validScore score ↔ -3 ≤ score ∧ score ≤ 3 := by
  rw [validScore, Bool.and_eq_true, decide_eq_true_eq, decide_eq_true_eq]
  exact Iff.rfl

namespace SampleBuilder

/-- A score that is in range is small enough for a sample. -/
theorem toInt_score {score : Int} (h : Sample.validScore score) :
    (Int8.ofInt score).toInt = score := by
  obtain ⟨hLeast, hGreatest⟩ := Sample.validScore_iff.1 h
  exact Int8.toInt_ofInt_of_le (by omega) (by omega)

/-- The samples that a sample builder makes have the first error of those that are given, and
without one they are as they are given. -/
theorem foldl_add (b : SampleBuilder) (given : List (String × Int × SampleDetails)) :
    (given.foldl (fun b (text, score, details) => b.add text score details) b).error =
        (b.error.toList ++ faults given).head? ∧
      (b.error = none → faults given = [] →
        (given.foldl (fun b (text, score, details) => b.add text score details) b).samples =
          b.samples ++ given.map sample) := by
  induction given generalizing b with
  | nil =>
      rw [List.foldl_nil, faults, List.filter_nil, List.map_nil, List.append_nil]
      exact ⟨by cases b.error <;> rfl, fun _ _ => (List.append_nil _).symm⟩
  | cons first rest ih =>
      obtain ⟨text, score, details⟩ := first
      rw [List.foldl_cons]
      obtain ⟨hError, hSamples⟩ := ih (b.add text score details)
      rw [hError]
      cases hOld : b.error with
      | some e => simp [add, hOld]
      | none =>
          cases hScore : Sample.validScore score with
          | false => simp [add, hOld, hScore, faults]
          | true =>
              have hRest : faults ((text, score, details) :: rest) = faults rest := by
                simp [faults, hScore]
              rw [hRest]
              refine ⟨by simp [add, hOld, hScore], fun _ hFaults => ?_⟩
              rw [hSamples (by simp [add, hOld, hScore]) hFaults]
              simp [add, hOld, hScore, sample]

end SampleBuilder

/-- Samples that are made one by one are refused for the first score that is out of range, and
otherwise taken as they are given. -/
theorem Samples.built_ofList (given : List (String × Int × SampleDetails)) :
    (built (.ofList given)).faults.head? = (SampleBuilder.faults given).head? ∧
      (SampleBuilder.faults given = [] →
        (built (.ofList given)).entries = given.map SampleBuilder.sample) := by
  obtain ⟨hError, hSamples⟩ := SampleBuilder.foldl_add {} given
  rw [← SampleBuilder.ofList] at hError hSamples
  refine ⟨?_, fun hNone => hSamples rfl hNone⟩
  rw [faults, hError]
  cases hFaults : SampleBuilder.faults given with
  | cons e more => rfl
  | nil =>
      rw [hSamples rfl hFaults]
      have hRange : Sample.faults (given.map SampleBuilder.sample) = [] := by
        rw [Sample.faults, List.map_eq_nil_iff, List.filter_eq_nil_iff, List.forall_mem_map]
        intro entry hMem
        rw [SampleBuilder.faults, List.map_eq_nil_iff, List.filter_eq_nil_iff] at hFaults
        have hScore := hFaults entry hMem
        simp only [Bool.not_eq_true', Bool.not_eq_false] at hScore
        simp [Sample.scoreInRange, SampleBuilder.sample, SampleBuilder.toInt_score hScore, hScore]
      simp [hRange]

namespace ContextBuilder

/-- What is wrong with the variables of one call. -/
theorem error_foldl_declare (b : ContextBuilder) (slots : List (ContextKind × String × String)) :
    (slots.foldl (fun b (kind, name, question) => b.declare kind name question) b).error =
      (b.error.toList ++ (Call.context slots).faults).head? := by
  induction slots generalizing b with
  | nil =>
      rw [List.foldl_nil, Call.faults, List.flatMap_nil, List.append_nil]
      cases b.error <;> rfl
  | cons slot rest ih =>
      obtain ⟨kind, name, question⟩ := slot
      rw [List.foldl_cons, ih, Call.faults, Call.faults, List.flatMap_cons]
      simp only [declare]
      cases hError : b.error with
      | some e => simp [hError]
      | none =>
          cases hBlank : blank name with
          | true => simp [BuildError.ofBlank, hBlank]
          | false => simp [BuildError.ofBlank, hBlank]

theorem error_ofList (slots : List (ContextKind × String × String)) :
    (ofList slots).error = (Call.context slots).faults.head? :=
  error_foldl_declare {} slots

/-- The variables of one call are merged by name before they come to the others of the scope, and
this changes nothing. -/
theorem foldl_declared_ofList {slots : List (ContextKind × String × String)}
    (h : (ofList slots).error = none) (context : List ContextVariable) (position : Nat) :
    ((ofList slots).declared.map fun v => v.atPosition position).foldl mergeContext context =
      ((Call.context slots).declared position).foldl mergeContext context := by
  have hPlaced : (given slots).map (ContextVariable.atPosition · position) =
      (Call.context slots).declared position := by
    rw [given, List.map_map]
    rfl
  rw [declared_ofList h, ContextVariable.map_atPosition_mergedContext, foldl_mergedContext, hPlaced]

end ContextBuilder

namespace Builder

variable {b : Builder}

/-- The builder after calls without faults. -/
def grown (b : Builder) (calls : List Call) : Builder :=
  { b with
    cards := b.cards ++ Call.nodesAll calls
    context := (Call.scopeFrom b.cards.length calls).foldl mergeContext b.context
    tools := b.tools ++ Call.toolsAll calls }

theorem grown_cons (b : Builder) (call : Call) (rest : List Call) :
    (b.grown [call]).grown rest = b.grown (call :: rest) := by
  simp [grown, Call.nodesAll, Call.scopeFrom, Call.toolsAll, Call.length_nodes]

/-- A builder with an error stays as it is. -/
theorem attempt_of_error {e : BuildError} (h : b.error = some e)
    (call : Builder → Except BuildError Builder) : b.attempt call = b := by
  rw [attempt, h]

theorem perform_of_error {e : BuildError} (h : b.error = some e) (call : Call) :
    b.perform call = b := by
  cases call <;>
    simp only [perform, spec, specWith, lead, tool, declare, group, attempt_of_error h]

theorem performAll_of_error {e : BuildError} (h : b.error = some e) (calls : List Call) :
    b.performAll calls = b := by
  induction calls with
  | nil => rfl
  | cons call rest ih => rw [performAll, perform_of_error h, ih]

theorem performAll_append (b : Builder) (calls more : List Call) :
    b.performAll (calls ++ more) = (b.performAll calls).performAll more := by
  induction calls generalizing b with
  | nil => rfl
  | cons call rest ih => rw [List.cons_append, performAll, performAll, ih]

theorem grown_nil (b : Builder) : b.grown [] = b := by
  simp only [grown, Call.nodesAll, Call.scopeFrom, Call.toolsAll, List.append_nil, List.foldl_nil]

theorem grown_singleton (b : Builder) (call : Call) :
    b.grown [call] = { b with
      cards := b.cards ++ call.nodes
      context := (call.declared b.cards.length).foldl mergeContext b.context
      tools := b.tools ++ call.tools } := by
  simp [grown, Call.nodesAll, Call.scopeFrom, Call.toolsAll]

/-- The builder after a call: as the call describes, or with the first thing that is wrong with
it. -/
def after (b : Builder) (call : Call) : Builder :=
  match call.faults with
  | [] => b.grown [call]
  | e :: _ => { b with error := some e }

/-- A builder without an error tries every call. -/
theorem attempt_of_checked (h : b.error = none) {tried : Builder → Except BuildError Builder}
    {call : Call} (hTried : tried b = checked call.faults (b.grown [call])) :
    b.attempt tried = b.after call := by
  simp only [attempt, h, hTried, after]
  cases call.faults <;> rfl

theorem map_checked {α β : Type} (f : α → β) (faults : List BuildError) (value : α) :
    (checked faults value).map f = checked faults (f value) := by
  cases faults <;> rfl

mutual

/-- A call is allowed if nothing is wrong with it, and then does what it describes. -/
theorem perform_eq (b : Builder) (h : b.error = none) (call : Call) :
    b.perform call = b.after call := by
  cases call with
  | spec value =>
      rw [perform, spec]
      refine attempt_of_checked h ?_
      rw [Call.faults, checked_ofBlank, grown_singleton]
      simp [Call.nodes, Call.declared, Call.tools, addCard]
  | specWith value samples =>
      rw [perform, specWith]
      refine attempt_of_checked h ?_
      rw [Call.faults, checked_ofBlank_append, grown_singleton, Samples.toList_eq, map_checked]
      simp [Call.nodes, Call.declared, Call.tools, addCard]
  | lead text =>
      rw [perform, lead]
      refine attempt_of_checked h ?_
      rw [Call.faults, checked_ofBlank, grown_singleton]
      simp [Call.nodes, Call.declared, Call.tools, addCard]
  | tool t =>
      rw [perform, tool]
      refine attempt_of_checked h ?_
      rw [Call.faults, checked_ofBlank, grown_singleton]
      simp [Call.nodes, Call.declared, Call.tools]
  | context slots =>
      rw [perform, declare]
      refine attempt_of_checked h ?_
      have hError := ContextBuilder.error_ofList slots
      cases hFaults : (Call.context slots).faults with
      | cons e more =>
          rw [hFaults, List.head?_cons] at hError
          simp only [hError]
          rfl
      | nil =>
          rw [hFaults, List.head?_nil] at hError
          simp only [hError]
          rw [checked, grown_singleton, ContextBuilder.foldl_declared_ofList hError]
          simp [Call.nodes, Call.tools]
  | group name body =>
      rw [perform, group]
      refine attempt_of_checked h ?_
      obtain ⟨hError, hGrown⟩ := performAll_eq {} rfl body
      rw [Call.faults, checked_ofBlank_append]
      cases hFaults : Call.faultsAll body with
      | cons e more =>
          rw [hFaults, List.head?_cons] at hError
          simp only [hError]
          rfl
      | nil =>
          rw [hFaults, List.head?_nil] at hError
          rw [hGrown hFaults] at hError ⊢
          simp only [hError]
          rw [checked, grown_singleton]
          simp [Call.nodes, Call.declared, Call.tools, addCard, grown, mergedContext]

/-- A run has the first error of its calls, and without one does what they describe. -/
theorem performAll_eq (b : Builder) (h : b.error = none) (calls : List Call) :
    (b.performAll calls).error = (Call.faultsAll calls).head? ∧
      (Call.faultsAll calls = [] → b.performAll calls = b.grown calls) := by
  cases calls with
  | nil => exact ⟨h, fun _ => (grown_nil b).symm⟩
  | cons call rest =>
      rw [performAll, perform_eq b h call, Call.faultsAll, after]
      cases hFaults : call.faults with
      | cons e more =>
          have hStays := performAll_of_error (b := { b with error := some e }) rfl rest
          simp [hStays]
      | nil =>
          obtain ⟨hError, hGrown⟩ := performAll_eq (b.grown [call]) h rest
          exact ⟨hError, fun hRest => (hGrown hRest).trans (grown_cons b call rest)⟩

end

end Builder

/-! ## Sound decks -/

namespace Node

/-- The variables of a scope have names, each a different one, and stand behind nodes that are
there. -/
structure ScopeSound (declared : List ContextVariable) (children : List Node) : Prop
    extends ScopeOk declared children where
  named : ∀ v ∈ declared, blank v.name = false

/-- The texts of the node are not blank, its scores are in range, and its scope is sound. -/
def Sound : Node → Prop
  | .leaf value samples =>
    blank value = false ∧ ∀ s ∈ samples, -3 ≤ s.score.toInt ∧ s.score.toInt ≤ 3
  | .lead text => blank text = false
  | .group header children => blank header.name = false ∧ ScopeSound header.context children

variable {declared : List ContextVariable} {children : List Node}

theorem scopeSound_nil (children : List Node) : ScopeSound [] children where
  positions := PositionsOk.nil children
  nodup := List.nodup_nil
  named := by simp

theorem ScopeSound.append (h : ScopeSound declared children) (more : List Node) :
    ScopeSound declared (children ++ more) where
  positions := h.positions.append more
  nodup := h.nodup
  named := h.named

theorem ScopeSound.merge (h : ScopeSound declared children) {v : ContextVariable}
    (hPosition : v.position = children.length) (hName : blank v.name = false) :
    ScopeSound (mergeContext declared v) children where
  toScopeOk := h.toScopeOk.mergeContext hPosition
  named := by
    intro w hMem
    have hNames := List.mem_map_of_mem (f := ContextVariable.name) hMem
    rw [show Deckwright.mergeContext declared v = [v].foldl Deckwright.mergeContext declared
      from rfl, names_foldl_mergeContext, mem_foldl_addKey] at hNames
    rcases hNames with hOld | hNew
    · obtain ⟨u, hIn, hSame⟩ := List.mem_map.1 hOld
      exact hSame ▸ h.named u hIn
    · rw [List.map_singleton, List.mem_singleton] at hNew
      rwa [hNew]

theorem ScopeSound.foldl (h : ScopeSound declared children) {more : List ContextVariable}
    (hMore : ∀ v ∈ more, v.position = children.length ∧ blank v.name = false) :
    ScopeSound (more.foldl mergeContext declared) children := by
  induction more generalizing declared with
  | nil => exact h
  | cons v rest ih =>
      obtain ⟨hPosition, hName⟩ := hMore v List.mem_cons_self
      exact ih (h.merge hPosition hName) fun w hMem => hMore w (List.mem_cons_of_mem v hMem)

end Node

/-- A deck as the builder lets it pass, in all of its tree and its scopes. -/
structure Deck.Sound (d : Deck) : Prop where
  nodes : Node.Everywhere Node.Sound d.children
  scope : Node.ScopeSound d.context d.children
  tools : ∀ t ∈ d.tools, blank t.name = false

namespace Call

open Node (Everywhere ScopeSound everywhere_append everywhere_group everywhere_nil
  everywhere_singleton)

theorem sound_declared {call : Call} (h : call.faults = []) (position : Nat) :
    ∀ v ∈ call.declared position, v.position = position ∧ blank v.name = false := by
  cases call with
  | context slots =>
      rw [faults, List.flatMap_eq_nil_iff] at h
      rw [declared, List.forall_mem_map]
      exact fun slot hMem => ⟨rfl, BuildError.ofBlank_eq_nil_iff.1 (h slot hMem)⟩
  | _ => simp [declared]

/-- Calls without faults keep a scope sound. -/
theorem scopeSound_scopeFrom {context : List ContextVariable} {cards : List Node}
    (hScope : ScopeSound context cards) {calls : List Call} (h : faultsAll calls = []) :
    ScopeSound ((scopeFrom cards.length calls).foldl mergeContext context)
      (cards ++ nodesAll calls) := by
  induction calls generalizing context cards with
  | nil => simpa [scopeFrom, nodesAll] using hScope
  | cons call rest ih =>
      obtain ⟨hCall, hRest⟩ := List.append_eq_nil_iff.1 h
      have hNext := (hScope.foldl (sound_declared hCall cards.length)).append call.nodes
      have hAll := ih hNext hRest
      rwa [List.length_append, length_nodes, List.append_assoc, ← List.foldl_append] at hAll

theorem scores_of_faults {samples : List Sample} (h : Sample.faults samples = []) :
    ∀ s ∈ samples, -3 ≤ s.score.toInt ∧ s.score.toInt ≤ 3 := by
  intro s hMem
  rw [Sample.faults, List.map_eq_nil_iff, List.filter_eq_nil_iff] at h
  have hRange : s.scoreInRange := by simpa using h s hMem
  exact Sample.validScore_iff.1 hRange

theorem scores_of_samples {samples : Samples} (h : samples.faults = []) :
    ∀ s ∈ samples.entries, -3 ≤ s.score.toInt ∧ s.score.toInt ≤ 3 := by
  cases samples with
  | list samples => exact scores_of_faults h
  | built b => exact scores_of_faults (List.append_eq_nil_iff.1 h).2

mutual

theorem sound_nodes {call : Call} (h : call.faults = []) :
    Everywhere Node.Sound call.nodes := by
  cases call with
  | spec value =>
      rw [faults, BuildError.ofBlank_eq_nil_iff] at h
      exact everywhere_singleton rfl ⟨h, by simp⟩
  | specWith value samples =>
      rw [faults, List.append_eq_nil_iff, BuildError.ofBlank_eq_nil_iff] at h
      exact everywhere_singleton rfl ⟨h.1, scores_of_samples h.2⟩
  | lead text =>
      rw [faults, BuildError.ofBlank_eq_nil_iff] at h
      exact everywhere_singleton rfl h
  | tool t => exact everywhere_nil
  | context slots => exact everywhere_nil
  | group name body =>
      rw [faults, List.append_eq_nil_iff, BuildError.ofBlank_eq_nil_iff] at h
      have hScope := scopeSound_scopeFrom (Node.scopeSound_nil []) h.2
      exact everywhere_group.2 ⟨⟨h.1, hScope⟩, sound_nodesAll h.2⟩

/-- All nodes of a program without faults are sound. -/
theorem sound_nodesAll {calls : List Call} (h : faultsAll calls = []) :
    Everywhere Node.Sound (nodesAll calls) := by
  cases calls with
  | nil => exact everywhere_nil
  | cons call rest =>
      obtain ⟨hCall, hRest⟩ := List.append_eq_nil_iff.1 h
      exact everywhere_append.2 ⟨sound_nodes hCall, sound_nodesAll hRest⟩

end

mutual

theorem sound_tools {call : Call} (h : call.faults = []) :
    ∀ t ∈ call.tools, blank t.name = false := by
  cases call with
  | tool t =>
      rw [tools, List.forall_mem_singleton]
      exact BuildError.ofBlank_eq_nil_iff.1 h
  | group name body =>
      rw [tools]
      exact sound_toolsAll (List.append_eq_nil_iff.1 h).2
  | _ => simp [tools]

theorem sound_toolsAll {calls : List Call} (h : faultsAll calls = []) :
    ∀ t ∈ toolsAll calls, blank t.name = false := by
  cases calls with
  | nil => simp [toolsAll]
  | cons call rest =>
      obtain ⟨hCall, hRest⟩ := List.append_eq_nil_iff.1 h
      exact List.forall_mem_append.2 ⟨sound_tools hCall, sound_toolsAll hRest⟩

end

/-- A program with faults has a first call with one. -/
theorem exists_first_fault {calls : List Call} {e : BuildError} {more : List BuildError}
    (h : faultsAll calls = e :: more) :
    ∃ before call later, calls = before ++ call :: later ∧ faultsAll before = [] ∧
      call.faults.head? = some e := by
  induction calls with
  | nil => cases h
  | cons call rest ih =>
      rw [faultsAll] at h
      cases hCall : call.faults with
      | cons first others =>
          rw [hCall, List.cons_append, List.cons.injEq] at h
          refine ⟨[], call, rest, rfl, rfl, ?_⟩
          rw [hCall, h.1, List.head?_cons]
      | nil =>
          rw [hCall, List.nil_append] at h
          obtain ⟨before, other, later, rfl, hBefore, hFirst⟩ := ih h
          refine ⟨call :: before, other, later, rfl, ?_, hFirst⟩
          rw [faultsAll, hCall, hBefore, List.append_nil]

end Call

/-! ## Whole programs -/

namespace Builder

/-- A program without faults builds the sound deck that it describes. -/
theorem build_of_sound (name : String) {calls : List Call} (h : Call.faultsAll calls = []) :
    ∃ d, (performAll { name } calls).build = .ok d ∧ d.children = Call.nodesAll calls ∧
      d.tools = Call.toolsAll calls ∧ d.context = mergedContext (Call.scopeFrom 0 calls) ∧
      d.Sound := by
  rw [(performAll_eq { name } rfl calls).2 h]
  exact ⟨_, rfl, rfl, rfl, rfl,
    { nodes := Call.sound_nodesAll h
      scope := Call.scopeSound_scopeFrom (Node.scopeSound_nil []) h
      tools := Call.sound_toolsAll h }⟩

/-- A run stops in front of its first call with a fault. -/
theorem performAll_of_fault (b : Builder) (h : b.error = none) {before later : List Call}
    {call : Call} {e : BuildError} (hBefore : Call.faultsAll before = [])
    (hCall : call.faults.head? = some e) :
    b.performAll (before ++ call :: later) = { b.performAll before with error := some e } := by
  obtain ⟨hNone, -⟩ := performAll_eq b h before
  rw [hBefore, List.head?_nil] at hNone
  have hFirst : (b.performAll before).perform call =
      { b.performAll before with error := some e } := by
    rw [perform_eq _ hNone, after]
    cases hFaults : call.faults with
    | nil => simp [hFaults] at hCall
    | cons first more =>
        rw [hFaults, List.head?_cons, Option.some.injEq] at hCall
        rw [hCall]
  rw [performAll_append, performAll, hFirst]
  exact performAll_of_error rfl later

/--
**What comes of a program.** Without faults it builds a sound deck: its nodes are those of the
calls, group by group, its tools those of all groups, and each scope has the variables of its own
calls, merged by name. Otherwise the builder stays as it was before the first call at the top that
has a fault, in it or inside of it, keeps the first error of that call for good, and builds nothing.
Samples that are given one by one have the faults of the samples one by one.
-/
theorem run_outcome (name : String) (calls : List Call) :
    (Call.faultsAll calls = [] →
      ∃ d, (performAll { name } calls).build = .ok d ∧ d.children = Call.nodesAll calls ∧
        d.tools = Call.toolsAll calls ∧ d.context = mergedContext (Call.scopeFrom 0 calls) ∧
        d.Sound) ∧
    (∀ e more, Call.faultsAll calls = e :: more →
      ∃ before call later, calls = before ++ call :: later ∧ Call.faultsAll before = [] ∧
        call.faults.head? = some e ∧
        performAll { name } calls = { performAll { name } before with error := some e } ∧
        (performAll { name } calls).build = .error e ∧
        ∀ further, performAll { name } (calls ++ further) = performAll { name } calls) ∧
    ∀ given, (Samples.built (.ofList given)).faults.head? = (SampleBuilder.faults given).head? ∧
      (SampleBuilder.faults given = [] →
        (Samples.built (.ofList given)).entries = given.map SampleBuilder.sample) := by
  refine ⟨build_of_sound name, fun e more hFaults => ?_, Samples.built_ofList⟩
  obtain ⟨before, call, later, rfl, hBefore, hCall⟩ := Call.exists_first_fault hFaults
  have hRun : performAll { name } (before ++ call :: later) =
      { performAll { name } before with error := some e } :=
    performAll_of_fault { name } rfl hBefore hCall
  refine ⟨before, call, later, rfl, hBefore, hCall, hRun, ?_, fun further => ?_⟩
  · rw [hRun]
    rfl
  · rw [performAll_append, hRun]
    exact performAll_of_error rfl further

/-- Calls of which one fails in the middle of a group, behind others that are allowed. -/
def halfwayCalls : List Call :=
  [.spec "one", .tool { name := "look" },
    .group "G" [.lead "text", .tool { name := "find" },
      .context [(.string, "x", "1?"), (.number, " ", "2?")], .spec ""],
    .group "" [.spec "two"]]

/-- The builder has the node and the tool from before the group, and the error of the variable. -/
theorem run_outcome_halfway :
    Call.faultsAll halfwayCalls = [.emptyContextName "2?", .emptyValue, .emptyGroupName] ∧
    (∃ before call later, halfwayCalls = before ++ call :: later ∧
      Call.faultsAll before = [] ∧ call.faults.head? = some (.emptyContextName "2?") ∧
      performAll { name := "d" } halfwayCalls =
        { performAll { name := "d" } before with error := some (.emptyContextName "2?") } ∧
      (performAll { name := "d" } halfwayCalls).build = .error (.emptyContextName "2?") ∧
      ∀ further, performAll { name := "d" } (halfwayCalls ++ further) =
        performAll { name := "d" } halfwayCalls) ∧
    (performAll { name := "d" } halfwayCalls).cards.length = 1 ∧
    (performAll { name := "d" } halfwayCalls).tools.map Tool.name = ["look"] := by
  have hFaults : Call.faultsAll halfwayCalls =
      [.emptyContextName "2?", .emptyValue, .emptyGroupName] := by
    decide +kernel
  exact ⟨hFaults, (run_outcome "d" halfwayCalls).2.1 _ _ hFaults, by decide +kernel,
    by decide +kernel⟩

end Builder

end Deckwright
