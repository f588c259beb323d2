import PullPlan.Plan.Json
import PullPlan.Style

/-!
# Printing plans

A plan is printed as JSON, or as a summary with one fact on each line.
-/

namespace PullPlan
namespace Plan

/-- The value of a variable as the summary shows it. -/
def showValue (colored : Bool) (value : EnvValue) : Text :=
  match value.toJson? with
  | some json => json.compact
  | none => Style.paint colored .brightBlack "(undefined)".toList

/-- The line about the tests. -/
def testsLine (colored : Bool) (plan : Plan) : Text :=
  if plan.runAll then "   Tests:     ".toList ++ Style.paint colored .green "all".toList
  else if plan.tags.isEmpty then
    "   Tests:     ".toList ++ Style.paint colored .yellow "none selected".toList
  else
    "   Tags:      ".toList
      ++ Style.paint colored .green (", ".toList.intercalate plan.tags)

/-- The line about the suite. -/
def suiteLine (colored : Bool) (plan : Plan) : Text :=
  "   Run suite: ".toList ++
    match plan.shouldRunSuite with
    | some true => Style.paint colored .green "yes".toList
    | some false => Style.paint colored .red "no".toList
    | none => Style.paint colored .brightBlack "not specified".toList

/-- The lines about the base URL. -/
def baseUrlLines (plan : Plan) : List Text :=
  match plan.baseUrl with
  | some url => ["   Base URL:  ".toList ++ url]
  | none => []

/-- The lines about the environment. -/
def environmentLines (colored : Bool) (plan : Plan) : List Text :=
  if plan.environment.isEmpty then []
  else
    "   Env:".toList :: plan.environment.entries.map fun entry =>
      "     ".toList ++ entry.1 ++ " = ".toList ++ showValue colored entry.2

/-- The lines of a titled list; an empty list has none. -/
def listLines (title : Text) (items : List Text) : List Text :=
  if items.isEmpty then []
  else ("   ".toList ++ title ++ [':']) :: items.map fun item => "     - ".toList ++ item

/-- The lines of the summary. -/
def summaryLines (colored : Bool) (plan : Plan) : List Text :=
  [Style.paint colored .boldCyan "Tests to run".toList, testsLine colored plan,
    suiteLine colored plan]
    ++ baseUrlLines plan ++ environmentLines colored plan
    ++ listLines "Extra specs".toList plan.specs ++ listLines "Pages".toList plan.pages

/-- The summary as a text. -/
def summary (colored : Bool) (plan : Plan) : Text :=
  (summaryLines colored plan).flatMap fun line => line ++ ['\n']

/-- What a command prints for a plan. -/
def printed (json colored : Bool) (plan : Plan) : Text :=
  if json then plan.toJson.pretty ++ ['\n'] else plan.summary colored

end Plan
end PullPlan
