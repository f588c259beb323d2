import Mathlib.Logic.Basic
import PullPlan.Proofs.Plan.LastWrite
import PullPlan.Proofs.RunnerConfig.Merge

/-!
# Who decides the grep filter

The grep filter of a runner configuration is meant to follow from the tags alone: `decidedFilter?`
is what they leave at its two keys. A merge sets the variables of the pull request afterwards,
though, and a pull request may declare `CYPRESS_grep` and `CYPRESS_grepTags` like any other
variable, also where the filter should not be touched (`merge_overwrites_untouched_grep`).

`merge_grepFilter_iff` says exactly when the tags have the last word: whatever value the body gives
to one of the two variables has to be the decided one.
-/

namespace PullPlan
namespace RunnerConfig

/-! ### The decision -/

/-- The variables that make up the grep filter. -/
def filterKeys : List Text := [grepKey, grepTagsKey]

/-- What the options and the tags alone leave at a key of the grep filter. -/
def decidedFilter? (config : RunnerConfig) (plan : Plan) (options : MergeOptions)
    (key : Text) : Option Json :=
  if options.setTests = false then config.env.get? key
  else if plan.runAll = true then none
  else if plan.tags = [] then config.env.get? key
  else if key = grepTagsKey then some (.string ([','].intercalate plan.tags))
  else none

/-- The tags that the report names as the new filter, by the options and the tags alone. -/
def decidedTags? (plan : Plan) (options : MergeOptions) : Option Text :=
  if options.setTests = true ∧ plan.runAll = false ∧ plan.tags ≠ [] then
    some ([','].intercalate plan.tags)
  else none

theorem grepChange_eq (plan : Plan) (options : MergeOptions) :
    grepChange plan options =
      if options.setTests = false then .keep
      else if plan.runAll = true then .clear
      else if plan.tags = [] then .keep
      else .replace ([','].intercalate plan.tags) := by
  rw [grepChange, Plan.grepTags?, Tags.join?]
  cases options.setTests <;> cases plan.runAll <;> cases plan.tags <;> rfl

theorem mem_filterKeys {key : Text} : key ∈ filterKeys ↔ key = grepKey ∨ key = grepTagsKey := by
  simp [filterKeys]

/-- Clearing the filter removes both of its keys. -/
theorem clear_apply_get? (env : Dict Json) {key : Text} (hkey : key ∈ filterKeys) :
    (GrepChange.clear.apply env).get? key = none := by
  have houtcome : GrepChange.clear.outcome? key = some none := if_pos (mem_filterKeys.1 hkey)
  rw [GrepChange.apply_get?, houtcome, Option.getD_some]

/-- Replacing the filter removes one key and sets the other. -/
theorem replace_apply_get? (env : Dict Json) (tags : Text) {key : Text} (hkey : key ∈ filterKeys) :
    ((GrepChange.replace tags).apply env).get? key
      = if key = grepTagsKey then some (.string tags) else none := by
  rw [GrepChange.apply_get?]
  unfold GrepChange.outcome?
  dsimp only
  by_cases htags : key = grepTagsKey
  · rw [if_pos htags, if_pos htags, Option.getD_some]
  · have hgrep : key = grepKey := (mem_filterKeys.1 hkey).resolve_right htags
    rw [if_neg htags, if_neg htags, if_pos hgrep, Option.getD_some]

/-- The change of the filter does at its two keys what is decided. -/
theorem grepChange_apply_get? (config : RunnerConfig) (plan : Plan) (options : MergeOptions)
    {key : Text} (hkey : key ∈ filterKeys) :
    ((grepChange plan options).apply config.env).get? key
      = decidedFilter? config plan options key := by
  rw [grepChange_eq]
  unfold decidedFilter?
  by_cases hset : options.setTests = false
  · rw [if_pos hset, if_pos hset]
    rfl
  rw [if_neg hset, if_neg hset]
  by_cases hall : plan.runAll = true
  · rw [if_pos hall, if_pos hall]
    exact clear_apply_get? config.env hkey
  rw [if_neg hall, if_neg hall]
  by_cases htags : plan.tags = []
  · rw [if_pos htags, if_pos htags]
    rfl
  rw [if_neg htags, if_neg htags]
  exact replace_apply_get? config.env _ hkey

theorem mergeReport_grepTags (config : RunnerConfig) (plan : Plan) (options : MergeOptions) :
    (config.mergeReport plan options).grepTags = decidedTags? plan options := by
  rw [mergeReport_eq, decidedTags?, grepChange_eq]
  cases options.setTests <;> cases plan.runAll <;> by_cases h : plan.tags = [] <;>
    simp [h, GrepChange.tags?]

/-! ### The pull request's own variables -/

/-- The value that the last line of a body declaring a variable gives it, as JSON. -/
def declaredJson? (body key : Text) : Option Json :=
  (((Text.lines body).filterMap (Directive.assigned? key)).getLast?).bind EnvValue.toJson?

theorem ofPullRequest_environment_json? (body : Text) (tags comments : List Text) (key : Text) :
    (Plan.ofPullRequest body tags comments).environment.json? key = declaredJson? body key := by
  rw [Environment.json?, Plan.ofPullRequest_environment_get?, declaredJson?]

/-- The filter after a merge: what the body declares, and else what is decided. -/
theorem merge_filter_get? (config : RunnerConfig) (body : Text) (tags comments : List Text)
    (options : MergeOptions) {key : Text} (hkey : key ∈ filterKeys) :
    (config.merge (Plan.ofPullRequest body tags comments) options).env.get? key
      = (declaredJson? body key).or
          (decidedFilter? config (Plan.ofPullRequest body tags comments) options key) := by
  rw [merge_env_get?, ofPullRequest_environment_json?, grepChange_apply_get? _ _ _ hkey]

theorem or_eq_right_iff {α : Type} {a b : Option α} :
    a.or b = b ↔ ∀ x, a = some x → b = some x := by
  cases a <;> simp [eq_comm]

/-- **The tags decide the grep filter exactly if the pull request does not set it otherwise.** After
merging the plan of a pull request, the two variables of the filter hold what the options and the
tags decide if and only if each value that the body declares for one of them is the decided one.
The report names the decided tags in any case. -/
theorem merge_grepFilter_iff (config : RunnerConfig) (body : Text) (tags comments : List Text)
    (options : MergeOptions) :
    ((∀ key ∈ filterKeys,
        (config.merge (Plan.ofPullRequest body tags comments) options).env.get? key
          = decidedFilter? config (Plan.ofPullRequest body tags comments) options key)
      ↔ ∀ key ∈ filterKeys, ∀ json, declaredJson? body key = some json →
          decidedFilter? config (Plan.ofPullRequest body tags comments) options key = some json) ∧
    (config.mergeReport (Plan.ofPullRequest body tags comments) options).grepTags
      = decidedTags? (Plan.ofPullRequest body tags comments) options := by
  refine ⟨?_, mergeReport_grepTags _ _ _⟩
  refine forall₂_congr fun key hkey => ?_
  rw [merge_filter_get? config body tags comments options hkey]
  exact or_eq_right_iff

/-- A configuration that filters tests by title. -/
def titleFilter : RunnerConfig :=
  { empty with env := Dict.empty.insert grepKey (.string "login".toList) }

/-- A pull request changes the filter of a configuration although the options say that it stays
untouched. -/
theorem merge_overwrites_untouched_grep :
    titleFilter.env.get? grepKey = some (.string "login".toList) ∧
    (titleFilter.merge (Plan.ofPullRequest "CYPRESS_grep=cart".toList ["@sanity".toList] [])
      ⟨true, false⟩).env.get? grepKey = some (.string "cart".toList) :=
  ⟨rfl, rfl⟩

end RunnerConfig
end PullPlan
