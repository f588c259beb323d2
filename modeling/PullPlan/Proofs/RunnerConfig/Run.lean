import PullPlan.Proofs.RunnerConfig.Merge

/-!
# Merging plans one after the other

`RunnerConfig.mergeAll` merges a sequence of plans, each with its own options, and `mergeReports`
collects the reports. One merge keeps the keys it does not know about and the specs that are there;
`mergeAll_run` says what that comes to after any number of merges.

The specs need the most care. `freshSpecs` walks through a list and remembers what it has taken so
far; `freshSpecs_append` carries that memory over from one list to the next, so that a run of merges
adds the specs of one long list (`mergeReports_addedSpecs`), and `freshSpecs_eq` says which ones
these are without any memory: the first occurrences of the specs that were not there.

Merging the same plan twice is merging it once (`merge_merge`), although the second merge removes
the grep filter again before it sets the variables of the plan.
-/

namespace PullPlan
namespace RunnerConfig

/-! ### Fresh specs -/

theorem freshSpecs_eq (known specs : List Text) :
    freshSpecs known specs = (specs.filter fun spec => !known.contains spec).eraseDups := by
  induction specs generalizing known with
  | nil => rfl
  | cons spec specs ih =>
    rw [freshSpecs]
    by_cases hknown : known.contains spec = true
    · rw [if_pos hknown, ih, List.filter_cons_of_neg (by simpa using hknown)]
    · rw [if_neg hknown, List.filter_cons_of_pos (by simpa using hknown), List.eraseDups_cons, ih,
        List.filter_filter]
      -- To be new behind the spec is to be new and to differ from it.
      congr 3
      funext other
      rw [List.contains_eq_any_beq, List.any_append, ← List.contains_eq_any_beq]
      simp [Bool.and_comm]

theorem mem_freshSpecs {known specs : List Text} {spec : Text} :
    spec ∈ freshSpecs known specs ↔ spec ∈ specs ∧ spec ∉ known := by
  rw [freshSpecs_eq, List.mem_eraseDups, List.mem_filter]
  simp

theorem nodup_freshSpecs (known specs : List Text) : (freshSpecs known specs).Nodup := by
  induction specs generalizing known with
  | nil => exact .nil
  | cons spec specs ih =>
    rw [freshSpecs]
    split
    · exact ih known
    · refine List.nodup_cons.2 ⟨fun hmem => ?_, ih _⟩
      have hnew : spec ∉ known ++ [spec] := (mem_freshSpecs.1 hmem).2
      exact hnew (List.mem_append_right _ List.mem_cons_self)

theorem freshSpecs_append (known front back : List Text) :
    freshSpecs known (front ++ back)
      = freshSpecs known front ++ freshSpecs (known ++ freshSpecs known front) back := by
  -- The memory grows along the front, so the induction is for all of them.
  induction front generalizing known with
  | nil => rw [List.nil_append, freshSpecs, List.nil_append, List.append_nil]
  | cons spec front ih =>
    rw [List.cons_append, freshSpecs, freshSpecs]
    split
    · exact ih known
    · rw [ih, List.cons_append, List.append_assoc]
      rfl

/-- Specs that are all there are not added. -/
theorem freshSpecs_eq_nil {known specs : List Text} (h : ∀ spec ∈ specs, spec ∈ known) :
    freshSpecs known specs = [] := by
  refine List.eq_nil_iff_forall_not_mem.2 fun spec hmem => ?_
  obtain ⟨hspec, hnew⟩ := mem_freshSpecs.1 hmem
  exact hnew (h spec hspec)

/-- After a merge all specs of the plan are there. -/
theorem mem_specs_merge (config : RunnerConfig) (plan : Plan) (options : MergeOptions) :
    ∀ spec ∈ plan.specs, spec ∈ (config.merge plan options).specs := by
  intro spec hspec
  rw [merge_specs, mergeReport_addedSpecs]
  by_cases hknown : spec ∈ config.specs
  · exact List.mem_append_left _ hknown
  · exact List.mem_append_right _ (mem_freshSpecs.2 ⟨hspec, hknown⟩)

/-! ### One plan twice -/

theorem ext_fields {config config' : RunnerConfig} (hurl : config.baseUrl = config'.baseUrl)
    (henv : ∀ key, config.env.get? key = config'.env.get? key)
    (hspecs : config.specs = config'.specs) (hother : config.other = config'.other) :
    config = config' := by
  have henv' : config.env = config'.env := Dict.ext_get? henv
  cases config
  cases config'
  simp_all

/-- The second merge finds each variable as the plan wants it, or as the change of the filter left
it. -/
theorem merge_merge_env_get? (config : RunnerConfig) (plan : Plan) (options : MergeOptions)
    (key : Text) :
    ((config.merge plan options).merge plan options).env.get? key
      = (config.merge plan options).env.get? key := by
  rw [merge_env_get?, GrepChange.apply_get?, merge_env_get?, GrepChange.apply_get?]
  cases plan.environment.json? key with
  | some json => rfl
  | none =>
    cases (grepChange plan options).outcome? key <;> rfl

/-- **Merging is idempotent.** -/
theorem merge_merge (config : RunnerConfig) (plan : Plan) (options : MergeOptions) :
    (config.merge plan options).merge plan options = config.merge plan options := by
  refine ext_fields ?url (merge_merge_env_get? config plan options) ?specs (merge_other _ _ _)
  case url =>
    rw [merge_baseUrl, merge_baseUrl]
    cases options.setBaseUrl with
    | false => rfl
    | true => cases plan.baseUrl <;> rfl
  case specs =>
    rw [merge_specs, mergeReport_addedSpecs,
      freshSpecs_eq_nil (mem_specs_merge config plan options), List.append_nil]

/-! ### Runs -/

/-- A plan and which parts of it are merged. -/
structure MergeStep where
  /-- The plan. -/
  plan : Plan
  /-- The parts that are merged. -/
  options : MergeOptions

/-- The base URL that a step sets, if it sets one. -/
def MergeStep.baseUrl? (step : MergeStep) : Option Text :=
  if step.options.setBaseUrl then step.plan.baseUrl else none

/-- The configuration with some plans merged into it, one after the other. -/
def mergeAll (config : RunnerConfig) (steps : List MergeStep) : RunnerConfig :=
  steps.foldl (fun config step => config.merge step.plan step.options) config

/-- The reports on these merges. -/
def mergeReports (config : RunnerConfig) : List MergeStep → List MergeReport
  | [] => []
  | step :: steps =>
    config.mergeReport step.plan step.options
      :: (config.merge step.plan step.options).mergeReports steps

theorem mergeAll_append (config : RunnerConfig) (front back : List MergeStep) :
    config.mergeAll (front ++ back) = (config.mergeAll front).mergeAll back :=
  List.foldl_append

theorem mergeAll_singleton (config : RunnerConfig) (step : MergeStep) :
    config.mergeAll [step] = config.merge step.plan step.options := rfl

/-- The report on a step is about the configuration that the steps before it have left. -/
theorem getElem?_mergeReports (config : RunnerConfig) (before : List MergeStep) (step : MergeStep)
    (behind : List MergeStep) :
    (config.mergeReports (before ++ step :: behind))[before.length]?
      = some ((config.mergeAll before).mergeReport step.plan step.options) := by
  induction before generalizing config with
  | nil => rfl
  | cons first before ih =>
    rw [List.cons_append, mergeReports, List.length_cons, List.getElem?_cons_succ, ih]
    rfl

theorem mergeAll_other (config : RunnerConfig) (steps : List MergeStep) :
    (config.mergeAll steps).other = config.other := by
  induction steps generalizing config with
  | nil => rfl
  | cons step steps ih =>
    rw [← merge_other config step.plan step.options]
    exact ih (config.merge step.plan step.options)

/-- A variable comes from one of the plans, is the text of a grep filter, or was there before. -/
theorem mergeAll_env_source {config : RunnerConfig} {steps : List MergeStep} {e : Text × Json}
    (he : e ∈ (config.mergeAll steps).env.entries) :
    (∃ step ∈ steps, e ∈ step.plan.environment.present) ∨ (∃ tags, e.2 = .string tags) ∨
      e ∈ config.env.entries := by
  induction steps generalizing config with
  | nil => exact .inr (.inr he)
  | cons step steps ih =>
    have hrest : e ∈ ((config.merge step.plan step.options).mergeAll steps).env.entries := he
    rcases ih hrest with ⟨later, hlater, hmem⟩ | htags | hmerged
    · exact .inl ⟨later, List.mem_cons_of_mem step hlater, hmem⟩
    · exact .inr (.inl htags)
    · rcases merge_env_source hmerged with hmem | hbefore
      · exact .inl ⟨step, List.mem_cons_self, hmem⟩
      · exact .inr hbefore

theorem mergeAll_baseUrl (config : RunnerConfig) (steps : List MergeStep) :
    (config.mergeAll steps).baseUrl
      = ((steps.filterMap MergeStep.baseUrl?).getLast?).or config.baseUrl := by
  refine foldl_overwrite RunnerConfig.baseUrl (fun config step => ?_) steps config
  rw [merge_baseUrl, MergeStep.baseUrl?]
  cases step.options.setBaseUrl <;> rfl

/-- The specs that the steps report as added are the fresh ones of all their specs in a row. -/
theorem mergeReports_addedSpecs (config : RunnerConfig) (steps : List MergeStep) :
    (config.mergeReports steps).flatMap MergeReport.addedSpecs
      = freshSpecs config.specs (steps.flatMap fun step => step.plan.specs) := by
  induction steps generalizing config with
  | nil => rfl
  | cons step steps ih =>
    rw [mergeReports, List.flatMap_cons, ih, List.flatMap_cons, freshSpecs_append, merge_specs,
      mergeReport_addedSpecs]

theorem mergeAll_specs (config : RunnerConfig) (steps : List MergeStep) :
    (config.mergeAll steps).specs
      = config.specs ++ (config.mergeReports steps).flatMap MergeReport.addedSpecs := by
  induction steps generalizing config with
  | nil => exact (List.append_nil _).symm
  | cons step steps ih =>
    have hrest := ih (config.merge step.plan step.options)
    rw [merge_specs] at hrest
    rw [mergeReports, List.flatMap_cons, ← List.append_assoc]
    exact hrest

/-- **What a run of merges does.** The keys that are not known stay. The base URL is the last one
that a step sets, and else the initial one. The initial specs stay as they are, also where one of
them is listed twice, and are followed by the first occurrences of the plans' specs that are not
among them. The report on each step names just the specs that this step appended, so the reports
together name all of them, each once. Repeating the last step changes nothing and adds no spec. -/
theorem mergeAll_run (config : RunnerConfig) (steps : List MergeStep) :
    (config.mergeAll steps).other = config.other ∧
    (config.mergeAll steps).baseUrl
        = ((steps.filterMap MergeStep.baseUrl?).getLast?).or config.baseUrl ∧
    (config.mergeAll steps).specs
        = config.specs ++ ((steps.flatMap fun step => step.plan.specs).filter
            fun spec => !config.specs.contains spec).eraseDups ∧
    (∀ before step behind,
      (config.mergeReports (before ++ step :: behind))[before.length]?
          = some ((config.mergeAll before).mergeReport step.plan step.options) ∧
      (config.mergeAll (before ++ [step])).specs
          = (config.mergeAll before).specs
              ++ ((config.mergeAll before).mergeReport step.plan step.options).addedSpecs) ∧
    (config.mergeAll steps).specs
        = config.specs ++ (config.mergeReports steps).flatMap MergeReport.addedSpecs ∧
    ((config.mergeReports steps).flatMap MergeReport.addedSpecs).Nodup ∧
    ∀ before step,
      config.mergeAll (before ++ [step] ++ [step]) = config.mergeAll (before ++ [step]) ∧
      ((config.mergeAll (before ++ [step])).mergeReport step.plan step.options).addedSpecs = [] := by
  refine ⟨mergeAll_other config steps, mergeAll_baseUrl config steps, ?_,
    fun before step behind => ⟨getElem?_mergeReports config before step behind, ?_⟩,
    mergeAll_specs config steps, ?_, fun before step => ⟨?_, ?_⟩⟩
  · rw [mergeAll_specs, mergeReports_addedSpecs, freshSpecs_eq]
  · rw [mergeAll_append, mergeAll_singleton, merge_specs]
  · rw [mergeReports_addedSpecs]
    exact nodup_freshSpecs _ _
  · rw [mergeAll_append, mergeAll_append, mergeAll_singleton, mergeAll_singleton, merge_merge]
  · rw [mergeAll_append, mergeAll_singleton, mergeReport_addedSpecs]
    exact freshSpecs_eq_nil (mem_specs_merge _ step.plan step.options)

end RunnerConfig
end PullPlan
