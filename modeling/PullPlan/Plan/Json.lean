import PullPlan.Plan.Basic
import PullPlan.Json.Printer

/-!
# Plans as JSON

The fields of a plan in a fixed order. Variables without a value are left out.
-/

namespace PullPlan

/-- The value as it is written by itself. An absent one is written as `null`. -/
def EnvValue.toJson (value : EnvValue) : Json :=
  match value.toJson? with
  | some json => json
  | none => .null

/-- The environment as a JSON object. Absent values are left out before anything is written. -/
def Environment.toJson (environment : Environment) : Json :=
  .object
    ((environment.entries.filter fun entry => !entry.2.isAbsent).map fun entry =>
      (entry.1, entry.2.toJson))

/-- The plan as a JSON object. -/
def Plan.toJson (plan : Plan) : Json :=
  .object
    [("runAll".toList, .bool plan.runAll),
     ("tags".toList, .ofTexts plan.tags),
     ("baseUrl".toList, .textOrNull plan.baseUrl),
     ("environment".toList, plan.environment.toJson),
     ("shouldRunSuite".toList, .boolOrNull plan.shouldRunSuite),
     ("additionalSpecPaths".toList, .ofTexts plan.specs),
     ("additionalPagesToTest".toList, .ofTexts plan.pages)]

end PullPlan
