import PullPlan.RunnerConfig.Merge
import PullPlan.Proofs.Dict

/-!
# What a merge comes to

`RunnerConfig.applyPlan` goes through a plan step by step, and each step changes the configuration
and the report together. `merge_eq` and `mergeReport_eq` say what the two are in the end, without
the steps: the base URL, the filter as `grepChange` says, the variables that have a value
(`Environment.present`), and the specs that were not there (`freshSpecs`).

A merge first changes the grep filter and then sets the variables of the plan, so what a variable
holds afterwards is decided in this order: the value that the plan gives it, if any, and else what
the change of the filter leaves there (`RunnerConfig.merge_env_get?`).
-/

namespace PullPlan

/-! ### Variables that have a value -/

/-- Of some variables those that have a value, as JSON. -/
def EnvValue.present (entries : List (Text × EnvValue)) : List (Text × Json) :=
  entries.filterMap fun entry => entry.2.toJson?.map fun json => (entry.1, json)

/-- The entries of an environment that have a value, as JSON. -/
def Environment.present (environment : Environment) : List (Text × Json) :=
  EnvValue.present environment.entries

/-- The value that an environment gives a variable, as JSON. An absent value is none. -/
def Environment.json? (environment : Environment) (key : Text) : Option Json :=
  (environment.get? key).bind EnvValue.toJson?

/-- Of the entries that have a value, those with a given key are at most one. -/
theorem Environment.valuesAt_present (environment : Environment) (key : Text) :
    Dict.valuesAt key environment.present = (environment.json? key).toList := by
  rw [Environment.json?, ← Dict.filterMap_entries_key, Environment.present, EnvValue.present,
    Dict.valuesAt,
    List.filterMap_filterMap]
  refine congrArg (fun f => List.filterMap f environment.entries) (funext fun e => ?_)
  cases e.2.toJson? with
  | none => exact (ite_self none).symm
  | some json => rfl

theorem Environment.mem_present_iff {environment : Environment} {key : Text} {value : Json} :
    (key, value) ∈ environment.present ↔ environment.json? key = some value := by
  rw [← Dict.mem_valuesAt_iff, environment.valuesAt_present, Option.mem_toList]

/-- Leaving out the entries without a value keeps the order of the others. -/
theorem Environment.present_ordered (environment : Environment) :
    environment.present.Pairwise fun a b => a.1 < b.1 := by
  rw [Environment.present, EnvValue.present, List.pairwise_filterMap]
  refine environment.ordered.imp fun {a b} hlt a' ha b' hb => ?_
  obtain ⟨_, -, rfl⟩ := Option.map_eq_some_iff.1 ha
  obtain ⟨_, -, rfl⟩ := Option.map_eq_some_iff.1 hb
  exact hlt

namespace RunnerConfig

/-! ### The steps -/

/-- What a plan does to the grep filter. -/
inductive GrepChange where
  /-- The filter stays as it is. -/
  | keep
  /-- The filter is removed. -/
  | clear
  /-- The filter becomes the given tags. -/
  | replace (tags : Text)

/-- The change that a plan asks for. -/
def grepChange (plan : Plan) (options : MergeOptions) : GrepChange :=
  if !options.setTests then .keep
  else if plan.runAll then .clear
  else
    match plan.grepTags? with
    | some tags => .replace tags
    | none => .keep

/-- Changes the grep filter of an environment. -/
def GrepChange.apply (change : GrepChange) (env : Dict Json) : Dict Json :=
  match change with
  | .keep => env
  | .clear => (env.erase grepKey).erase grepTagsKey
  | .replace tags => (env.erase grepKey).insert grepTagsKey (.string tags)

/-- The tags that a change sets as the filter. -/
def GrepChange.tags? : GrepChange → Option Text
  | .replace tags => some tags
  | _ => none

/-- Whether a change removes the filter that was there. -/
def GrepChange.clears : GrepChange → Bool
  | .keep => false
  | _ => true

/-- The specs of a list that are neither known nor earlier in the list. -/
def freshSpecs (known : List Text) : List Text → List Text
  | [] => []
  | spec :: specs =>
    if known.contains spec then freshSpecs known specs
    else spec :: freshSpecs (known ++ [spec]) specs

theorem setBaseUrl_eq (config : RunnerConfig) (plan : Plan) (options : MergeOptions) :
    (⟨config, .empty⟩ : Merging).setBaseUrl plan options =
      { config :=
          { config with
            baseUrl :=
              if options.setBaseUrl then plan.baseUrl.or config.baseUrl else config.baseUrl }
        report :=
          { MergeReport.empty with
            baseUrl := if options.setBaseUrl then plan.baseUrl else none } } := by
  unfold Merging.setBaseUrl
  cases plan.baseUrl <;> cases options.setBaseUrl <;> rfl

theorem setFilter_eq (state : Merging) (plan : Plan) (options : MergeOptions)
    (htags : state.report.grepTags = none) (hcleared : state.report.clearedGrep = false) :
    state.setFilter plan options =
      { config :=
          { state.config with env := (grepChange plan options).apply state.config.env }
        report :=
          { state.report with
            grepTags := (grepChange plan options).tags?
            clearedGrep := (grepChange plan options).clears } } := by
  rcases state with ⟨config, baseUrl, grepTags, clearedGrep, envKeys, addedSpecs⟩
  obtain rfl : grepTags = none := htags
  obtain rfl : clearedGrep = false := hcleared
  unfold Merging.setFilter grepChange
  cases options.setTests with
  | false => rfl
  | true =>
    cases plan.runAll with
    | true => rfl
    | false => cases plan.grepTags? <;> rfl

/-- The variables that have a value are set one after the other, and each one is reported. -/
theorem foldl_setVariable (state : Merging) (entries : List (Text × EnvValue)) :
    entries.foldl Merging.setVariable state =
      { config :=
          { state.config with
            env := state.config.env.insertAll (EnvValue.present entries) }
        report :=
          { state.report with
            envKeys :=
              state.report.envKeys
                ++ (EnvValue.present entries).map (·.1) } } := by
  induction entries generalizing state with
  | nil => simp [EnvValue.present, Dict.insertAll]
  | cons entry entries ih =>
    rw [List.foldl_cons, ih]
    unfold Merging.setVariable EnvValue.present
    rw [List.filterMap_cons]
    cases entry.2.toJson? with
    | none => rfl
    | some json => simp [Dict.insertAll]

/-- A spec is looked up among those that were there and those that were appended before it. -/
theorem foldl_addSpec (state : Merging) (specs : List Text) :
    specs.foldl Merging.addSpec state =
      { config :=
          { state.config with
            specs := state.config.specs ++ freshSpecs state.config.specs specs }
        report :=
          { state.report with
            addedSpecs := state.report.addedSpecs ++ freshSpecs state.config.specs specs } } := by
  induction specs generalizing state with
  | nil => simp [freshSpecs]
  | cons spec specs ih =>
    rw [List.foldl_cons, ih, Merging.addSpec, freshSpecs]
    by_cases hknown : state.config.specs.contains spec = true
    · rw [if_pos hknown, if_pos hknown]
    · rw [if_neg hknown, if_neg hknown]
      simp

theorem applyPlan_eq (config : RunnerConfig) (plan : Plan) (options : MergeOptions) :
    config.applyPlan plan options =
      { config :=
          { baseUrl :=
              if options.setBaseUrl then plan.baseUrl.or config.baseUrl else config.baseUrl
            env := ((grepChange plan options).apply config.env).insertAll plan.environment.present
            specs := config.specs ++ freshSpecs config.specs plan.specs
            other := config.other }
        report :=
          { baseUrl := if options.setBaseUrl then plan.baseUrl else none
            grepTags := (grepChange plan options).tags?
            clearedGrep := (grepChange plan options).clears
            envKeys := plan.environment.present.map (·.1)
            addedSpecs := freshSpecs config.specs plan.specs } } := by
  show plan.specs.foldl Merging.addSpec
    (plan.environment.entries.foldl Merging.setVariable
      (((⟨config, .empty⟩ : Merging).setBaseUrl plan options).setFilter plan options)) = _
  rw [setBaseUrl_eq, setFilter_eq _ _ _ rfl rfl, foldl_setVariable, foldl_addSpec]
  rfl

/-! ### Configuration and report -/

/-- **The configuration after a merge.** -/
theorem merge_eq (config : RunnerConfig) (plan : Plan) (options : MergeOptions) :
    config.merge plan options =
      { baseUrl := if options.setBaseUrl then plan.baseUrl.or config.baseUrl else config.baseUrl
        env := ((grepChange plan options).apply config.env).insertAll plan.environment.present
        specs := config.specs ++ freshSpecs config.specs plan.specs
        other := config.other } := by
  rw [merge, applyPlan_eq]

/-- **The report on a merge.** -/
theorem mergeReport_eq (config : RunnerConfig) (plan : Plan) (options : MergeOptions) :
    config.mergeReport plan options =
      { baseUrl := if options.setBaseUrl then plan.baseUrl else none
        grepTags := (grepChange plan options).tags?
        clearedGrep := (grepChange plan options).clears
        envKeys := plan.environment.present.map (·.1)
        addedSpecs := freshSpecs config.specs plan.specs } := by
  rw [mergeReport, applyPlan_eq]

theorem merge_baseUrl (config : RunnerConfig) (plan : Plan) (options : MergeOptions) :
    (config.merge plan options).baseUrl
      = if options.setBaseUrl then plan.baseUrl.or config.baseUrl else config.baseUrl := by
  rw [merge_eq]

@[simp] theorem merge_other (config : RunnerConfig) (plan : Plan) (options : MergeOptions) :
    (config.merge plan options).other = config.other := by
  rw [merge_eq]

/-- The specs that are reported are those that were appended. -/
theorem merge_specs (config : RunnerConfig) (plan : Plan) (options : MergeOptions) :
    (config.merge plan options).specs
      = config.specs ++ (config.mergeReport plan options).addedSpecs := by
  rw [merge_eq, mergeReport_eq]

theorem mergeReport_addedSpecs (config : RunnerConfig) (plan : Plan) (options : MergeOptions) :
    (config.mergeReport plan options).addedSpecs = freshSpecs config.specs plan.specs := by
  rw [mergeReport_eq]

/-- What becomes of the base URL depends on nothing else in the configuration. -/
theorem merge_baseUrl_congr {config config' : RunnerConfig} {plan : Plan} {options : MergeOptions}
    (h : config.baseUrl = config'.baseUrl) :
    (config.merge plan options).baseUrl = (config'.merge plan options).baseUrl := by
  rw [merge_baseUrl, merge_baseUrl, h]

/-- What becomes of the specs depends on nothing else in the configuration. -/
theorem merge_specs_congr {config config' : RunnerConfig} {plan : Plan} {options : MergeOptions}
    (h : config.specs = config'.specs) :
    (config.merge plan options).specs = (config'.merge plan options).specs := by
  rw [merge_eq, merge_eq, h]

/-! ### The grep filter -/

/-- What a change of the filter leaves at a key whatever was there: a value, or no value. `none` for
the keys that it does not touch. -/
def GrepChange.outcome? (change : GrepChange) (key : Text) : Option (Option Json) :=
  match change with
  | .keep => none
  | .clear => if key = grepKey ∨ key = grepTagsKey then some none else none
  | .replace tags =>
    if key = grepTagsKey then some (some (.string tags))
    else if key = grepKey then some none
    else none

/-- What a change touches does not depend on the environment. -/
theorem GrepChange.apply_get? (change : GrepChange) (env : Dict Json) (key : Text) :
    (change.apply env).get? key = (change.outcome? key).getD (env.get? key) := by
  cases change with
  | keep => rfl
  | clear =>
    unfold apply outcome?
    rw [Dict.get?_erase, Dict.get?_erase]
    by_cases htags : key = grepTagsKey
    · rw [if_pos htags, if_pos (.inr htags), Option.getD_some]
    · by_cases hgrep : key = grepKey
      · rw [if_neg htags, if_pos hgrep, if_pos (.inl hgrep), Option.getD_some]
      · rw [if_neg htags, if_neg hgrep, if_neg (not_or.2 ⟨hgrep, htags⟩), Option.getD_none]
  | replace tags =>
    unfold apply outcome?
    dsimp only
    rw [Dict.get?_insert, Dict.get?_erase]
    by_cases htags : key = grepTagsKey
    · rw [if_pos htags, if_pos htags, Option.getD_some]
    · by_cases hgrep : key = grepKey
      · rw [if_neg htags, if_pos hgrep, if_neg htags, if_pos hgrep, Option.getD_some]
      · rw [if_neg htags, if_neg hgrep, if_neg htags, if_neg hgrep, Option.getD_none]

/-! ### All variables -/

theorem merge_env_get? (config : RunnerConfig) (plan : Plan) (options : MergeOptions)
    (key : Text) :
    (config.merge plan options).env.get? key
      = (plan.environment.json? key).or
          (((grepChange plan options).apply config.env).get? key) := by
  rw [merge_eq, Dict.get?_insertAll, Environment.valuesAt_present]
  cases plan.environment.json? key <;> rfl

/-- A variable comes from the plan, is the text of a grep filter, or was there before. -/
theorem merge_env_source {config : RunnerConfig} {plan : Plan} {options : MergeOptions}
    {e : Text × Json} (he : e ∈ (config.merge plan options).env.entries) :
    e ∈ plan.environment.present ∨ (∃ tags, e.2 = .string tags) ∨ e ∈ config.env.entries := by
  have hget := Dict.mem_entries_iff.1 he
  rw [merge_env_get?] at hget
  cases hplan : plan.environment.json? e.1 with
  | some value =>
    rw [hplan, Option.some_or] at hget
    obtain rfl := Option.some.inj hget
    exact .inl (Environment.mem_present_iff.2 hplan)
  | none =>
    rw [hplan, Option.none_or, GrepChange.apply_get?] at hget
    cases houtcome : (grepChange plan options).outcome? e.1 with
    | none =>
      rw [houtcome, Option.getD_none] at hget
      exact .inr (.inr (Dict.mem_entries_iff.2 hget))
    | some outcome =>
      -- The change leaves nothing or the tags.
      rw [houtcome, Option.getD_some] at hget
      refine .inr (.inl ?_)
      unfold GrepChange.outcome? at houtcome
      grind

end RunnerConfig
end PullPlan
