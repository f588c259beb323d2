import PullPlan.Plan.Basic
import PullPlan.RunnerConfig.Basic
import PullPlan.Style

/-!
# Merging a plan into a runner configuration

`RunnerConfig.applyPlan` goes through a plan once. It sets what the plan asks for and reports each
change as it makes it; `RunnerConfig.merge` is the configuration that comes of this, and
`RunnerConfig.mergeReport` the report.

The grep filter of the runner is two environment variables, `grep` and `grepTags`; selecting all
tests removes both, and selecting tags replaces both by the tags. The variables of the plan come
last and so may set them again. Spec files are appended, each once.
-/

namespace PullPlan

/-- Which parts of a plan are merged. -/
structure MergeOptions where
  /-- Whether the base URL is set. -/
  setBaseUrl : Bool
  /-- Whether the grep filter is set. -/
  setTests : Bool
  deriving DecidableEq

/-- The options that merge everything. -/
def MergeOptions.all : MergeOptions := ⟨true, true⟩

/-- What a merge changed. -/
structure MergeReport where
  /-- The base URL that was set. -/
  baseUrl : Option Text
  /-- The tags that were set as the grep filter. -/
  grepTags : Option Text
  /-- Whether an earlier grep filter was removed. -/
  clearedGrep : Bool
  /-- The variables that were set. -/
  envKeys : List Text
  /-- The spec files that were appended. -/
  addedSpecs : List Text
  deriving DecidableEq

/-- The report before anything is changed. -/
def MergeReport.empty : MergeReport := ⟨none, none, false, [], []⟩

/-- A configuration in the course of a merge, and the report on the changes so far. -/
structure Merging where
  /-- The configuration. -/
  config : RunnerConfig
  /-- The report. -/
  report : MergeReport

namespace RunnerConfig

/-- The variable that filters tests by title. -/
def grepKey : Text := "grep".toList

/-- The variable that filters tests by tags. -/
def grepTagsKey : Text := "grepTags".toList

end RunnerConfig

namespace Merging

open RunnerConfig (grepKey grepTagsKey)

/-- Sets the base URL of a plan. -/
def setBaseUrl (state : Merging) (plan : Plan) (options : MergeOptions) : Merging :=
  match plan.baseUrl with
  | none => state
  | some url =>
    if options.setBaseUrl then
      { config := { state.config with baseUrl := some url }
        report := { state.report with baseUrl := some url } }
    else state

/-- Sets or removes the grep filter. -/
def setFilter (state : Merging) (plan : Plan) (options : MergeOptions) : Merging :=
  if !options.setTests then state
  else if plan.runAll then
    { config :=
        { state.config with env := (state.config.env.erase grepKey).erase grepTagsKey }
      report := { state.report with clearedGrep := true } }
  else
    match plan.grepTags? with
    | none => state
    | some tags =>
      { config :=
          { state.config with
            env := (state.config.env.erase grepKey).insert grepTagsKey (.string tags) }
        report := { state.report with grepTags := some tags, clearedGrep := true } }

/-- Sets a variable. An absent value leaves the variable alone, and `null` is a value. -/
def setVariable (state : Merging) (entry : Text × EnvValue) : Merging :=
  match entry.2.toJson? with
  | none => state
  | some json =>
    { config := { state.config with env := state.config.env.insert entry.1 json }
      report := { state.report with envKeys := state.report.envKeys ++ [entry.1] } }

/-- Appends a spec file that is not there. -/
def addSpec (state : Merging) (spec : Text) : Merging :=
  if state.config.specs.contains spec then state
  else
    { config := { state.config with specs := state.config.specs ++ [spec] }
      report := { state.report with addedSpecs := state.report.addedSpecs ++ [spec] } }

end Merging

namespace RunnerConfig

/-- Merges a plan into a configuration and reports on it. -/
def applyPlan (config : RunnerConfig) (plan : Plan) (options : MergeOptions) : Merging :=
  let state := (⟨config, .empty⟩ : Merging).setBaseUrl plan options
  let state := state.setFilter plan options
  let state := plan.environment.entries.foldl Merging.setVariable state
  plan.specs.foldl Merging.addSpec state

/-- The configuration with the plan merged into it. -/
def merge (config : RunnerConfig) (plan : Plan) (options : MergeOptions) : RunnerConfig :=
  (config.applyPlan plan options).config

/-- The report on a merge. -/
def mergeReport (config : RunnerConfig) (plan : Plan) (options : MergeOptions) : MergeReport :=
  (config.applyPlan plan options).report

end RunnerConfig

namespace MergeReport

/-- The line about the grep filter. -/
def grepLines (colored : Bool) (report : MergeReport) : List Text :=
  match report.grepTags with
  | some tags => ["   grepTags: ".toList ++ Style.paint colored .green tags]
  | none =>
    if report.clearedGrep then
      ["   ".toList
        ++ Style.paint colored .green "running all tests, removed grep options".toList]
    else []

/-- A line that lists some items; no items have no line. -/
def itemsLines (title : Text) (items : List Text) : List Text :=
  if items.isEmpty then [] else [title ++ ", ".toList.intercalate items]

/-- The lines of the report. -/
def lines (colored : Bool) (report : MergeReport) : List Text :=
  (match report.baseUrl with
    | some url => ["   baseUrl:  ".toList ++ url]
    | none => [])
    ++ report.grepLines colored
    ++ itemsLines "   env:      ".toList report.envKeys
    ++ itemsLines "   specs:    ".toList report.addedSpecs

end MergeReport
end PullPlan
