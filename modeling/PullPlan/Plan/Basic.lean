import PullPlan.Directive
import PullPlan.ListBlock
import PullPlan.Tags

/-!
# Plans

A plan says which tests to run for a pull request. `Plan.ofPullRequest` reads it off the body and
the comments. The last directive of a kind wins, and comments count for the base URL alone.
-/

namespace PullPlan

/-- Which tests to run, and with what settings. -/
structure Plan where
  /-- Whether all tests run, whatever their tags. -/
  runAll : Bool
  /-- The tags that are checked, with repetitions. -/
  tags : List Text
  /-- The base URL. -/
  baseUrl : Option Text
  /-- The environment variables. -/
  environment : Environment
  /-- Whether the suite should run, if the pull request says so. -/
  shouldRunSuite : Option Bool
  /-- Spec files to run in addition. -/
  specs : List Text
  /-- Pages to visit in addition. -/
  pages : List Text

namespace Plan

/-- The plan before anything is read. -/
def empty : Plan := ⟨false, [], none, .empty, none, [], []⟩

/-- Reads a line of the body into a plan. A line that declares a base URL is not looked at for a
variable. -/
def readLine (plan : Plan) (line : Text) : Plan :=
  let plan := match Directive.runSuite? line with
    | some run => { plan with shouldRunSuite := some run }
    | none => plan
  match Directive.baseUrl? line with
  | some url => { plan with baseUrl := some url }
  | none =>
    match Directive.assignment? line with
    | some (key, value) => { plan with environment := plan.environment.insert key value }
    | none => plan

/-- Reads a comment into a plan: its last base URL, if it has one, replaces the one so far. -/
def readComment (plan : Plan) (comment : Text) : Plan :=
  match ((Text.lines comment).filterMap Directive.baseUrl?).getLast? with
  | some url => { plan with baseUrl := some url }
  | none => plan

/-- The plan of a pull request, by its body, the tags to look for and its comments in order. -/
def ofPullRequest (body : Text) (tags : List Text) (comments : List Text) : Plan :=
  let plan := (Text.lines body).foldl readLine empty
  let plan := { plan with specs := ListBlock.specs body, pages := ListBlock.pages body }
  let plan := comments.foldl readComment plan
  let selection := Tags.scan body tags
  { plan with runAll := selection.runAll, tags := selection.tags }

/-- The tags as a grep filter. -/
def grepTags? (plan : Plan) : Option Text := Tags.join? plan.tags

end Plan
end PullPlan
