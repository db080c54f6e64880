import Mathlib.Data.Option.Basic
import Deckwright.Config

/-!
# When settings are judged

Settings are checked twice: as the configuration file tells them (`told?`), and as they are used,
with those replaced that the environment gives. The second check asks nothing of the file that the
environment replaces, the first one does. So a file is turned down for a model or an address that
would not be used.

* `validate_eq_ok_iff`: what is checked, as the structure `Allowed`.
* `load_text`: the order of the two checks.
* `allowed_iff_of_withEnvironment`: what the first check asks beyond the second.

Main result: `judgedLast_iff`, for which files the first check does not matter.
-/

namespace Deckwright.Config

variable {c told : Config} {text : String} {environment : String → Option String}

/-! ## The checks -/

/-- The settings are allowed. -/
structure Allowed (c : Config) : Prop where
  temperature : ∀ t, c.defaultTemperature = some t → t.isBetweenZeroAnd 2 = true
  model : blank c.defaultModel = false
  address : c.registry.enabled = true → c.registry.apiUrl.isSome = true

theorem problem?_eq_none_iff : c.problem? = none ↔ c.Allowed := by
  have hTemperature : (c.defaultTemperature.any fun t => !t.isBetweenZeroAnd 2) = true ↔
      ¬ ∀ t, c.defaultTemperature = some t → t.isBetweenZeroAnd 2 = true := by
    cases c.defaultTemperature <;> simp
  have hAddress : (c.registry.enabled && c.registry.apiUrl.isNone) = true ↔
      ¬ (c.registry.enabled = true → c.registry.apiUrl.isSome = true) := by
    cases c.registry.enabled <;> cases c.registry.apiUrl <;> simp
  rw [problem?]
  constructor
  · intro h
    split at h
    · cases h
    split at h
    · cases h
    split at h
    · cases h
    rename_i hWarm hBlank hMissing
    exact ⟨not_not.1 (mt hTemperature.2 hWarm), by simpa using hBlank,
      not_not.1 (mt hAddress.2 hMissing)⟩
  · intro h
    rw [if_neg fun hWarm => hTemperature.1 hWarm h.temperature, h.model,
      if_neg Bool.false_ne_true, if_neg fun hMissing => hAddress.1 hMissing h.address]

instance (c : Config) : Decidable c.Allowed :=
  decidable_of_iff _ problem?_eq_none_iff

theorem validate_eq_ok_iff {checked : Config} :
    c.validate = .ok checked ↔ checked = c ∧ checked.Allowed := by
  rw [validate]
  cases hProblem : c.problem? with
  | none =>
      dsimp only
      constructor
      · intro h
        cases h
        exact ⟨rfl, problem?_eq_none_iff.1 hProblem⟩
      · rintro ⟨rfl, -⟩
        rfl
  | some problem =>
      dsimp only
      constructor
      · intro h
        cases h
      · rintro ⟨rfl, hAllowed⟩
        rw [problem?_eq_none_iff.2 hAllowed] at hProblem
        cases hProblem

/-- The settings that the text of a configuration file tells, allowed or not. -/
def told? (text : String) : Option Config :=
  (Toml.read? text).bind fun entries => ofJson? ((Toml.table entries).toJson dateSetting)

theorem ofToml_eq (text : String) :
    ofToml text = (told? text).elim (.error .malformed) validate := by
  rw [ofToml, told?]
  cases Toml.read? text with
  | none => rfl
  | some entries =>
      rw [Option.bind_some]
      dsimp only
      cases ofJson? ((Toml.table entries).toJson dateSetting) <;> rfl

/-! ## The order of the checks -/

/-- The settings of a file are checked before the environment is looked at. -/
theorem load_text (h : told? text = some told) (environment : String → Option String) :
    load (.ok text) environment = told.validate.bind fun c =>
      (c.withEnvironment environment).validate := by
  rw [load, ofFile, ofToml_eq, h, Option.elim_some]
  cases told.validate <;> rfl

theorem load_text_eq_ok_iff :
    load (.ok text) environment = .ok c ↔
      ∃ told, told? text = some told ∧ told.Allowed ∧ c = told.withEnvironment environment ∧
        c.Allowed := by
  cases hTold : told? text with
  | none =>
      rw [load, ofFile, ofToml_eq, hTold, Option.elim_none]
      simp
  | some told =>
      rw [load_text hTold]
      simp only [Option.some.injEq, exists_eq_left']
      cases hChecked : told.validate with
      | error e =>
          have hNot : ¬ told.Allowed := fun hAllowed => by
            rw [validate_eq_ok_iff.2 ⟨rfl, hAllowed⟩] at hChecked
            cases hChecked
          simp [Except.bind, hNot]
      | ok checked =>
          obtain ⟨rfl, hAllowed⟩ := validate_eq_ok_iff.1 hChecked
          simp only [Except.bind, hAllowed, true_and]
          exact validate_eq_ok_iff

/-- What is wrong with the file is the error, whatever the environment gives. -/
theorem load_text_of_problem (h : told? text = some told) {problem : ConfigProblem}
    (hProblem : told.problem? = some problem) :
    load (.ok text) environment = .error (.invalid problem) := by
  rw [load_text h, validate, hProblem]
  rfl

/-! ## What the environment replaces -/

/-- The file is asked for a model and for an address even where the environment gives them. -/
theorem allowed_iff_of_withEnvironment (h : (told.withEnvironment environment).Allowed) :
    told.Allowed ↔ blank told.defaultModel = false ∧
      (told.registry.enabled = true → told.registry.apiUrl.isSome = true) :=
  ⟨fun hTold => ⟨hTold.model, hTold.address⟩,
    fun hTold => { temperature := h.temperature, model := hTold.1, address := hTold.2 }⟩

/-- Loading is judged by the settings that are used: it gives those that the file tells with the
ones of the environment in their place, exactly if they are allowed. -/
def JudgedLast (text : String) (environment : String → Option String) : Prop :=
  ∀ c, load (.ok text) environment = .ok c ↔
    ∃ told, told? text = some told ∧ c = told.withEnvironment environment ∧ c.Allowed

/--
**The file is judged first.** Loading gives settings exactly if the file tells settings that are
allowed and those that the environment makes of them are allowed, too; else a problem of the file is
the error. So loading is judged by the settings that are used exactly if the file, where these are
allowed, has a model itself, and an address if it enables the registry. Without a file there are
only the settings that are used.
-/
theorem judgedLast_iff (text : String) (environment : String → Option String) :
    (∀ c, load (.ok text) environment = .ok c ↔
      ∃ told, told? text = some told ∧ told.Allowed ∧ c = told.withEnvironment environment ∧
        c.Allowed) ∧
    (∀ told problem, told? text = some told → told.problem? = some problem →
      load (.ok text) environment = .error (.invalid problem)) ∧
    (JudgedLast text environment ↔
      ∀ told, told? text = some told → (told.withEnvironment environment).Allowed →
        blank told.defaultModel = false ∧
          (told.registry.enabled = true → told.registry.apiUrl.isSome = true)) ∧
    ∀ cause : DiskError, cause.isAbsence = true → ∀ c,
      load (.error cause) environment = .ok c ↔
        c = withEnvironment environment {} ∧ c.Allowed := by
  refine ⟨fun c => load_text_eq_ok_iff, fun told problem h => load_text_of_problem h, ?_, ?_⟩
  · constructor
    · intro hJudged told hTold hUsed
      obtain ⟨same, hSame, hAllowed, -⟩ :=
        load_text_eq_ok_iff.1 ((hJudged _).2 ⟨told, hTold, rfl, hUsed⟩)
      rw [hTold] at hSame
      cases hSame
      exact (allowed_iff_of_withEnvironment hUsed).1 hAllowed
    · intro hFile c
      rw [load_text_eq_ok_iff]
      constructor
      · rintro ⟨told, hTold, -, hSame, hUsed⟩
        exact ⟨told, hTold, hSame, hUsed⟩
      · rintro ⟨told, hTold, rfl, hUsed⟩
        exact ⟨told, hTold, (allowed_iff_of_withEnvironment hUsed).2 (hFile told hTold hUsed), rfl,
          hUsed⟩
  · intro cause hAbsent c
    rw [load, ofFile, if_pos hAbsent]
    exact validate_eq_ok_iff

/-- The environment in which one variable has a value. -/
def environmentOf (name value : String) (asked : String) : Option String :=
  if asked = name then some value else none

/-- A file without a model, and one that enables the registry without an address, are turned down
though the environment gives what is missing. -/
theorem not_judgedLast :
    (load (.ok "default_model = \" \"\n") (environmentOf modelVariable "local/llama") =
        .error (.invalid .blankModel) ∧
      ¬ JudgedLast "default_model = \" \"\n" (environmentOf modelVariable "local/llama")) ∧
    load (.ok "[registry]\nenabled = true\n")
        (environmentOf urlVariable "https://registry.test/api") =
      .error (.invalid .registryWithoutUrl) ∧
    ¬ JudgedLast "[registry]\nenabled = true\n"
      (environmentOf urlVariable "https://registry.test/api") := by
  have hBlank : told? "default_model = \" \"\n" = some { defaultModel := " " } := by
    decide +kernel
  have hEnabled : told? "[registry]\nenabled = true\n" =
      some { registry := { enabled := true } } := by
    decide +kernel
  refine ⟨⟨load_text_of_problem hBlank (by decide), fun hJudged => ?_⟩,
    load_text_of_problem hEnabled (by decide), fun hJudged => ?_⟩
  · have hLoaded := (hJudged _).2 ⟨_, hBlank, rfl, by decide⟩
    rw [load_text_of_problem hBlank (by decide : _ = some .blankModel)] at hLoaded
    cases hLoaded
  · have hLoaded := (hJudged _).2 ⟨_, hEnabled, rfl, by decide⟩
    rw [load_text_of_problem hEnabled (by decide : _ = some .registryWithoutUrl)] at hLoaded
    cases hLoaded

end Deckwright.Config
