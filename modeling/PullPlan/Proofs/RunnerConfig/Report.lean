import PullPlan.Proofs.RunnerConfig.GrepFilter
import PullPlan.Proofs.Text.Utf8

/-!
# What a merge changes, and what it reports

`mergedVariable?` is the value that a variable is meant to have after a merge: the plan's, and else
what the selection of the tests leaves of the grep filter. `merge_env_get?_eq` says that the merge
comes to just that, although it removes, inserts and overwrites one after the other.

Each step of a merge reports what it sets, whether or not that was there before. `merge_accounted`
says what comes of this: whatever differs afterwards is in the report, and the variables in it are
those to which the plan gives a value.
-/

namespace PullPlan

theorem EnvValue.isSome_toJson?_iff {v : EnvValue} :
    v.toJson?.isSome = true ↔ v.isAbsent = false := by
  cases v <;> simp [toJson?, isAbsent]

namespace RunnerConfig

/-! ### The environment -/

/-- The value that a variable is meant to have after a merge. -/
def mergedVariable? (config : RunnerConfig) (plan : Plan) (options : MergeOptions) (key : Text) :
    Option Json :=
  match (plan.environment.get? key).bind EnvValue.toJson? with
  | some json => some json
  | none =>
    if options.setTests = true ∧ plan.runAll = true ∧ (key = grepKey ∨ key = grepTagsKey) then none
    else if options.setTests = true ∧ plan.runAll = false ∧ plan.tags ≠ [] ∧ key = grepKey then none
    else if options.setTests = true ∧ plan.runAll = false ∧ plan.tags ≠ [] ∧ key = grepTagsKey then
      some (.string ([','].intercalate plan.tags))
    else config.env.get? key

theorem grepKey_ne_grepTagsKey : grepKey ≠ grepTagsKey := by decide

theorem merge_env_get?_eq (config : RunnerConfig) (plan : Plan) (options : MergeOptions)
    (key : Text) :
    (config.merge plan options).env.get? key = mergedVariable? config plan options key := by
  rw [merge_env_get?, Environment.json?]
  unfold mergedVariable?
  cases (plan.environment.get? key).bind EnvValue.toJson? with
  | some json => rfl
  | none =>
    rw [Option.none_or]
    dsimp only
    -- At the keys of the filter the selection decides, and all other keys are left alone.
    by_cases hkey : key ∈ filterKeys
    · rw [grepChange_apply_get? config plan options hkey]
      unfold decidedFilter?
      rcases mem_filterKeys.1 hkey with rfl | rfl
      · cases options.setTests <;> cases plan.runAll <;> by_cases htags : plan.tags = [] <;>
          simp [htags, grepKey_ne_grepTagsKey]
      · cases options.setTests <;> cases plan.runAll <;> by_cases htags : plan.tags = [] <;>
          simp [htags, grepKey_ne_grepTagsKey.symm]
    · obtain ⟨hgrep, htags⟩ := not_or.1 (mem_filterKeys.not.1 hkey)
      have houtcome : (grepChange plan options).outcome? key = none := by
        unfold GrepChange.outcome?
        cases grepChange plan options <;> simp [hgrep, htags]
      rw [GrepChange.apply_get?, houtcome, Option.getD_none]
      simp [hgrep, htags]

/-! ### The report -/

theorem mem_envKeys_iff {config : RunnerConfig} {plan : Plan} {options : MergeOptions}
    {key : Text} :
    key ∈ (config.mergeReport plan options).envKeys
      ↔ ∃ value, plan.environment.get? key = some value ∧ value.isAbsent = false := by
  have hpresent : key ∈ (config.mergeReport plan options).envKeys
      ↔ ∃ json, plan.environment.json? key = some json := by
    simp [mergeReport_eq, Environment.mem_present_iff]
  rw [hpresent, ← Option.isSome_iff_exists, Environment.json?, Option.isSome_bind,
    Option.any_eq_true]
  simp only [EnvValue.isSome_toJson?_iff]

theorem envKeys_ordered (config : RunnerConfig) (plan : Plan) (options : MergeOptions) :
    (config.mergeReport plan options).envKeys.Pairwise
      fun a b => Utf8.encode a < Utf8.encode b := by
  rw [mergeReport_eq, List.pairwise_map]
  exact plan.environment.present_ordered.imp fun hlt => Utf8.encode_lt_iff.2 hlt

theorem clearedGrep_of_outcome? {config : RunnerConfig} {plan : Plan} {options : MergeOptions}
    {key : Text} {outcome : Option Json}
    (h : (grepChange plan options).outcome? key = some outcome) :
    (config.mergeReport plan options).clearedGrep = true ∧ (key = grepKey ∨ key = grepTagsKey) := by
  unfold GrepChange.outcome? at h
  rw [mergeReport_eq]
  cases hchange : grepChange plan options with
  | keep => simp [hchange] at h
  | clear =>
    simp only [hchange] at h
    split at h
    · rename_i hkey
      exact ⟨rfl, hkey⟩
    · contradiction
  | replace tags =>
    simp only [hchange] at h
    split at h
    · rename_i hkey
      exact ⟨rfl, .inr hkey⟩
    · split at h
      · rename_i hkey
        exact ⟨rfl, .inl hkey⟩
      · contradiction

/-! ### What differs -/

/-- A base URL that differs is the one that the report names. -/
theorem merge_baseUrl_of_ne {config : RunnerConfig} {plan : Plan} {options : MergeOptions}
    (h : (config.merge plan options).baseUrl ≠ config.baseUrl) :
    ∃ url, (config.mergeReport plan options).baseUrl = some url ∧
      (config.merge plan options).baseUrl = some url := by
  rw [merge_baseUrl] at h ⊢
  rw [mergeReport_eq]
  split at h
  · rename_i hset
    rw [if_pos hset, if_pos hset]
    cases hurl : plan.baseUrl with
    | none => simp [hurl] at h
    | some url => exact ⟨url, rfl, rfl⟩
  · contradiction

/-- A variable that differs was set, or it belongs to a filter that was removed. -/
theorem merge_env_of_ne {config : RunnerConfig} {plan : Plan} {options : MergeOptions} {key : Text}
    (h : (config.merge plan options).env.get? key ≠ config.env.get? key) :
    key ∈ (config.mergeReport plan options).envKeys ∨
      ((config.mergeReport plan options).clearedGrep = true ∧
        (key = grepKey ∨ key = grepTagsKey)) := by
  cases hjson : plan.environment.json? key with
  | some json =>
    have hmem : (key, json) ∈ plan.environment.present := Environment.mem_present_iff.2 hjson
    rw [mergeReport_eq]
    exact .inl (List.mem_map_of_mem hmem)
  | none =>
    rw [merge_env_get?, hjson, Option.none_or, GrepChange.apply_get?] at h
    cases houtcome : (grepChange plan options).outcome? key with
    | none => simp [houtcome] at h
    | some outcome => exact .inr (clearedGrep_of_outcome? houtcome)

/-- **A merge does what is documented, and its report accounts for every change.** A variable has
the plan's value, unless that is absent, and else what the selection of the tests leaves of the grep
filter; no other variable is touched. The report lists exactly the variables of the plan that have a
value, in the order of their bytes. A base URL that differs is the one in the report. A variable
that differs is listed, or it belongs to the grep filter and the report says that this was removed.
Specs that differ end with those in the report, and nothing else differs. -/
theorem merge_accounted (config : RunnerConfig) (plan : Plan) (options : MergeOptions) :
    (∀ key, (config.merge plan options).env.get? key = mergedVariable? config plan options key) ∧
    ((∀ key, key ∈ (config.mergeReport plan options).envKeys
        ↔ ∃ value, plan.environment.get? key = some value ∧ value.isAbsent = false) ∧
      (config.mergeReport plan options).envKeys.Pairwise
        fun a b => Utf8.encode a < Utf8.encode b) ∧
    ((config.merge plan options).baseUrl ≠ config.baseUrl →
      ∃ url, (config.mergeReport plan options).baseUrl = some url ∧
        (config.merge plan options).baseUrl = some url) ∧
    (∀ key, (config.merge plan options).env.get? key ≠ config.env.get? key →
      key ∈ (config.mergeReport plan options).envKeys ∨
        ((config.mergeReport plan options).clearedGrep = true ∧
          (key = grepKey ∨ key = grepTagsKey))) ∧
    ((config.merge plan options).specs ≠ config.specs →
      (config.mergeReport plan options).addedSpecs ≠ [] ∧
        (config.merge plan options).specs
          = config.specs ++ (config.mergeReport plan options).addedSpecs) ∧
    (config.merge plan options).other = config.other := by
  refine ⟨merge_env_get?_eq config plan options,
    ⟨fun _ => mem_envKeys_iff, envKeys_ordered config plan options⟩, merge_baseUrl_of_ne,
    fun _ => merge_env_of_ne, fun h => ⟨fun hnil => h ?_, merge_specs config plan options⟩,
    merge_other config plan options⟩
  rw [merge_specs, hnil, List.append_nil]

/-- A plan with a base URL, a tag, a spec, and three variables: one of the grep filter, one without
a value and one that is `null`. -/
def accountedPlan : Plan :=
  { Plan.ofPullRequest
      "baseUrl http://localhost:7777\nCYPRESS_grep=cart\nCYPRESS_flag\nCYPRESS_user=null".toList
      [] [] with
    runAll := false, tags := ["@sanity".toList], specs := ["b.cy.js".toList] }

theorem merge_accounted_accountedPlan :
    ((titleFilter.merge accountedPlan .all).baseUrl ≠ titleFilter.baseUrl ∧
      ∃ url, (titleFilter.mergeReport accountedPlan .all).baseUrl = some url ∧
        (titleFilter.merge accountedPlan .all).baseUrl = some url) ∧
    ((titleFilter.merge accountedPlan .all).env.get? grepTagsKey
        ≠ titleFilter.env.get? grepTagsKey ∧
      (grepTagsKey ∈ (titleFilter.mergeReport accountedPlan .all).envKeys ∨
        ((titleFilter.mergeReport accountedPlan .all).clearedGrep = true ∧
          (grepTagsKey = grepKey ∨ grepTagsKey = grepTagsKey)))) ∧
    ((titleFilter.merge accountedPlan .all).specs ≠ titleFilter.specs ∧
      (titleFilter.mergeReport accountedPlan .all).addedSpecs ≠ []) := by
  obtain ⟨-, -, hurl, henv, hspecs, -⟩ := merge_accounted titleFilter accountedPlan .all
  have hurl' : (titleFilter.merge accountedPlan .all).baseUrl ≠ titleFilter.baseUrl := by decide
  have htags : (titleFilter.merge accountedPlan .all).env.get? grepTagsKey
      = some (.string "@sanity".toList) := rfl
  have hnone : titleFilter.env.get? grepTagsKey = none := rfl
  have henv' : (titleFilter.merge accountedPlan .all).env.get? grepTagsKey
      ≠ titleFilter.env.get? grepTagsKey := by
    rw [htags, hnone]
    exact Option.some_ne_none _
  have hspecs' : (titleFilter.merge accountedPlan .all).specs ≠ titleFilter.specs := by decide
  exact ⟨⟨hurl', hurl hurl'⟩, ⟨henv', henv _ henv'⟩, ⟨hspecs', (hspecs hspecs').1⟩⟩

end RunnerConfig
end PullPlan
