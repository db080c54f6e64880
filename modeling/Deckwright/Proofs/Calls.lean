import Deckwright.Builder

/-!
# Calls on a builder

`Builder.Performed` says what a call does that is allowed, one case for each kind of call, with
what the call had to satisfy. A call on a builder with an error does nothing, so a run without an
error is one whose calls are all `Performed`.
-/

namespace Deckwright.Builder

variable {b : Builder}

/-- A builder after a call that is allowed. -/
inductive Performed (b : Builder) : Call → Builder → Prop where
  | spec {value : String} (hValue : blank value = false) :
      Performed b (.spec value) (b.addCard (.leaf value []))
  | specWith {value : String} {samples : Samples} {list : List Sample}
      (hValue : blank value = false) (hSamples : samples.toList = .ok list) :
      Performed b (.specWith value samples) (b.addCard (.leaf value list))
  | lead {text : String} (hText : blank text = false) :
      Performed b (.lead text) (b.addCard (.lead text))
  | tool {t : Tool} (hName : blank t.name = false) :
      Performed b (.tool t) { b with tools := b.tools ++ [t] }
  | context {slots : List (ContextKind × String × String)}
      (hSlots : (ContextBuilder.ofList slots).error = none) :
      Performed b (.context slots)
        { b with
          context := ((ContextBuilder.ofList slots).declared.map fun v =>
            v.atPosition b.cards.length).foldl mergeContext b.context }
  | group {name : String} {body : List Call} (hName : blank name = false)
      (hBody : (performAll {} body).error = none) :
      Performed b (.group name body)
        { b.addCard (.group { name, context := (performAll {} body).context }
            (performAll {} body).cards) with
          tools := b.tools ++ (performAll {} body).tools }

/-- A call without an error is one on a builder without an error that has a result. -/
theorem exists_of_attempt {call : Builder → Except BuildError Builder}
    (h : (b.attempt call).error = none) :
    b.error = none ∧ ∃ next, call b = .ok next ∧ b.attempt call = next := by
  unfold attempt at h ⊢
  cases hError : b.error with
  | some e => simp [hError] at h
  | none =>
      cases hCall : call b with
      | error e => simp [hError, hCall] at h
      | ok next => exact ⟨rfl, next, rfl, rfl⟩

/-- A check in front of a result was passed. -/
theorem ok_of_check {check : Bool} {e : BuildError} {result : Except BuildError Builder}
    {next : Builder} (h : (if check then .error e else result) = .ok next) :
    check = false ∧ result = .ok next := by
  cases check with
  | true => cases h
  | false => exact ⟨rfl, h⟩

theorem error_eq_none_of_perform {call : Call} (h : (b.perform call).error = none) :
    b.error = none := by
  cases call <;> exact (exists_of_attempt h).1

/-- After a call that is not allowed no later call takes the error back. -/
theorem error_eq_none_of_performAll {calls : List Call}
    (h : (b.performAll calls).error = none) : b.error = none := by
  induction calls generalizing b with
  | nil => exact h
  | cons call rest ih => exact error_eq_none_of_perform (ih h)

theorem performed {call : Call} (h : (b.perform call).error = none) :
    Performed b call (b.perform call) := by
  cases call with
  | spec value =>
      obtain ⟨-, next, hCall, hNext⟩ := exists_of_attempt h
      obtain ⟨hValue, hCard⟩ := ok_of_check hCall
      cases hCard
      rw [perform, Builder.spec, hNext]
      exact .spec hValue
  | specWith value samples =>
      obtain ⟨-, next, hCall, hNext⟩ := exists_of_attempt h
      obtain ⟨hValue, hCard⟩ := ok_of_check hCall
      rw [perform, Builder.specWith, hNext]
      cases hSamples : samples.toList with
      | error e =>
          rw [hSamples] at hCard
          cases hCard
      | ok list =>
          rw [hSamples] at hCard
          cases hCard
          exact .specWith hValue hSamples
  | lead text =>
      obtain ⟨-, next, hCall, hNext⟩ := exists_of_attempt h
      obtain ⟨hText, hCard⟩ := ok_of_check hCall
      cases hCard
      rw [perform, Builder.lead, hNext]
      exact .lead hText
  | tool t =>
      obtain ⟨-, next, hCall, hNext⟩ := exists_of_attempt h
      obtain ⟨hName, hTool⟩ := ok_of_check hCall
      cases hTool
      rw [perform, Builder.tool, hNext]
      exact .tool hName
  | context slots =>
      obtain ⟨-, next, hCall, hNext⟩ := exists_of_attempt h
      rw [perform, declare, hNext]
      cases hSlots : (ContextBuilder.ofList slots).error with
      | some e =>
          rw [hSlots] at hCall
          cases hCall
      | none =>
          rw [hSlots] at hCall
          cases hCall
          exact .context hSlots
  | group name body =>
      obtain ⟨-, next, hCall, hNext⟩ := exists_of_attempt h
      obtain ⟨hName, hGroup⟩ := ok_of_check hCall
      rw [perform, Builder.group, hNext]
      cases hBody : (performAll {} body).error with
      | some e =>
          rw [hBody] at hGroup
          cases hGroup
      | none =>
          rw [hBody] at hGroup
          cases hGroup
          exact .group hName hBody

end Deckwright.Builder
