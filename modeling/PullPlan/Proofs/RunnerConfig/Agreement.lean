import PullPlan.Proofs.Plan.Shown
import PullPlan.Proofs.RunnerConfig.Codec

/-!
# The printed environment is the applied one

The environment of a plan goes three ways: it is written as JSON, it is merged into a runner
configuration, and it is shown in the summary. Each way looks for the variables without a value by
itself: writing filters them out, merging passes over them, and the summary shows them as undefined.

`ofPullRequest_environments_agree` says that the three come to the same entries in the same order.
The printed texts are read for that: JSON by its tree, in which no number is rounded, and a summary
by `Plan.shownVariables`.
-/

namespace PullPlan

/-! ### Written values -/

/-- Leaving out the absent values first and turning the others into JSON afterwards comes to the
entries that have a value as JSON. So no `null` is written that is not one. -/
theorem Environment.toJson_eq (environment : Environment) :
    environment.toJson = .object environment.present := by
  unfold toJson present EnvValue.present
  rw [← List.filterMap_eq_filter, ← List.filterMap_eq_map, List.filterMap_filterMap]
  refine congrArg Json.object (List.filterMap_congr fun e _ => ?_)
  obtain ⟨key, value⟩ := e
  cases value <;> rfl

/-! ### Shown values -/

namespace Plan

/-- No JSON text is what an absent value is shown as: that is no JSON text at all. -/
theorem compact_ne_undefinedText (json : Json) (colored : Bool) :
    json.compact ≠ undefinedText colored := by
  intro h
  have hnone : Json.Tree.ofText? (undefinedText colored) = none := by
    cases colored <;> rfl
  rw [← h, Json.treeOfText?_compact] at hnone
  contradiction

/-- Without the variables that are shown as undefined, the shown ones are those with a value. -/
theorem filter_showValue (environment : Environment) (colored : Bool) :
    (environment.entries.map fun e => (e.1, showValue colored e.2)).filter
        (fun shown => shown.2 ≠ undefinedText colored)
      = environment.present.map fun e => (e.1, e.2.compact) := by
  rw [Environment.present, EnvValue.present, List.map_filterMap, ← List.filterMap_eq_filter,
    List.filterMap_map]
  refine List.filterMap_congr fun e _ => ?_
  obtain ⟨key, value⟩ := e
  cases hjson : value.toJson? with
  | none =>
    have hshown : showValue colored value = undefinedText colored := by
      unfold undefinedText showValue
      rw [hjson]
      rfl
    simp [hshown, Option.guard]
  | some json =>
    have hshown : showValue colored value = json.compact := by
      unfold showValue
      rw [hjson]
    simp [hshown, compact_ne_undefinedText, Option.guard]

end Plan

namespace RunnerConfig

/-! ### The three ways -/

/-- What the variables of a plan come to in a configuration that had none. -/
def appliedEnvironment (plan : Plan) (setBaseUrl : Bool) : Dict Json :=
  (empty.merge plan ⟨setBaseUrl, false⟩).env

/-- As long as the grep filter is not set, nothing but the plan's variables is there. -/
theorem entries_appliedEnvironment (plan : Plan) (setBaseUrl : Bool) :
    (appliedEnvironment plan setBaseUrl).entries = plan.environment.present := by
  rw [appliedEnvironment, merge_eq]
  exact Dict.entries_ofList plan.environment.present_ordered

/-- The environments in the object that a text is. -/
def environmentsIn? (t : Text) : Option (List Json.Tree) :=
  (objectOf? t).map (Dict.valuesAt "environment".toList)

/-- A text that reads as the JSON of a plan has one environment, and that is the applied one. -/
theorem environmentsIn?_of_tree {plan : Plan} {t : Text}
    (h : Json.Tree.ofText? t = some plan.toJson.tree) (setBaseUrl : Bool) :
    environmentsIn? t = some [(Json.ofDict (appliedEnvironment plan setBaseUrl)).tree] := by
  have hone : plan.toJson.tree.members?.map (Dict.valuesAt "environment".toList)
      = some [plan.environment.toJson.tree] := rfl
  unfold environmentsIn? objectOf?
  rw [h, Option.bind_some, hone, Environment.toJson_eq, Json.ofDict, entries_appliedEnvironment]

theorem envKeys_eq_keys (plan : Plan) (setBaseUrl : Bool) :
    (empty.mergeReport plan ⟨setBaseUrl, false⟩).envKeys
      = (appliedEnvironment plan setBaseUrl).keys := by
  rw [mergeReport_eq, Dict.keys, entries_appliedEnvironment]

/-- **The printed environment is the applied one.** Take the plan of any pull request, and merge it
into the configuration that sets nothing, without its tests. The JSON of the plan, as it is printed
and in either layout, has one environment, and that has the keys and the values of the merged one.
The report on the merge lists these keys in this order. The summary shows these variables in this
order, each with its value as compact JSON, and all others as undefined, with colours or without. -/
theorem ofPullRequest_environments_agree (body : Text) (tags comments : List Text)
    (setBaseUrl colored : Bool) :
    (environmentsIn? ((Plan.ofPullRequest body tags comments).printed true colored)
        = some [(Json.ofDict
            (appliedEnvironment (Plan.ofPullRequest body tags comments) setBaseUrl)).tree] ∧
      environmentsIn? (Plan.ofPullRequest body tags comments).toJson.pretty
        = some [(Json.ofDict
            (appliedEnvironment (Plan.ofPullRequest body tags comments) setBaseUrl)).tree] ∧
      environmentsIn? (Plan.ofPullRequest body tags comments).toJson.compact
        = some [(Json.ofDict
            (appliedEnvironment (Plan.ofPullRequest body tags comments) setBaseUrl)).tree]) ∧
    (empty.mergeReport (Plan.ofPullRequest body tags comments) ⟨setBaseUrl, false⟩).envKeys
      = (appliedEnvironment (Plan.ofPullRequest body tags comments) setBaseUrl).keys ∧
    (Plan.shownVariables ((Plan.ofPullRequest body tags comments).printed false colored)).filter
        (fun shown => shown.2 ≠ Plan.undefinedText colored)
      = (appliedEnvironment (Plan.ofPullRequest body tags comments) setBaseUrl).entries.map
          fun e => (e.1, e.2.compact) := by
  have hclean := Plan.ofPullRequest_isClean body tags comments
  generalize Plan.ofPullRequest body tags comments = plan at hclean ⊢
  refine ⟨⟨environmentsIn?_of_tree ?_ setBaseUrl, environmentsIn?_of_tree ?_ setBaseUrl,
    environmentsIn?_of_tree ?_ setBaseUrl⟩, envKeys_eq_keys plan setBaseUrl, ?_⟩
  · exact Json.treeOfText?_pretty_line plan.toJson
  · exact Json.treeOfText?_pretty plan.toJson
  · exact Json.treeOfText?_compact plan.toJson
  · show (Plan.shownVariables (plan.summary colored)).filter _ = _
    rw [Plan.shownVariables_summary hclean, Plan.filter_showValue, entries_appliedEnvironment]

-- A whole number is an integer, one that is out of range is `null`, and a flag has no value.
example : (appliedEnvironment (Plan.ofPullRequest
      "CYPRESS_low=1.0\nCYPRESS_flag\nCYPRESS_high=1e999".toList [] []) true).entries.map
        (fun e => (e.1, e.2.compact))
    = [("high".toList, "null".toList), ("low".toList, "1".toList)] := by decide +kernel

end RunnerConfig
end PullPlan
