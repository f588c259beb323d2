import PullPlan.Command.Basic

/-!
# Commands about a pull request

The commands that ask GitHub for a pull request and tell what it says: `tests` prints the plan,
`body` prints the text and the plan, and `shouldRun` decides whether the suite should run. Each of
them first makes a client, which needs a token, then finds the pull request that is meant, and then
fetches its text.
-/

namespace PullPlan
namespace Command

/-! ### Finding and fetching -/

/-- Makes a client with a token. The token is looked at before the client is set up. -/
def clientFor (surroundings : Surroundings) (settings : Settings) (token : Text) :
    Except GitHub.Error GitHub.Client := do
  let client ← GitHub.Client.new settings.github token
  if surroundings.hasTransport then .ok client else .error .request

/-- Makes a client with the token of the surroundings, as a source. -/
def connect (settings : Settings) : Command GitHub.Source := look fun surroundings _ =>
  let client := do
    let token ← GitHub.Client.tokenFrom surroundings.variableOf
    clientFor surroundings settings token
  match client with
  | .ok client => .ok (client.source surroundings.network)
  | .error e => .error (.github e)

/-- The commit that is checked out in the directory of the command, if there is one. -/
def checkedOut (surroundings : Surroundings) (files : FileTree) : Option Text :=
  match surroundings.directoryRefusal with
  | some _ => none
  | none =>
    match Git.headCommit files surroundings.objects surroundings.directory ['.'] with
    | .ok id => some id
    | .error _ => none

/-- The pull request that a target means. -/
def find (target : Target) (settings : Settings) (source : GitHub.Source) : Command PullRequest :=
  look fun surroundings files =>
    match target.resolve settings.owner settings.repo (checkedOut surroundings files) source with
    | .ok pr => .ok pr
    | .error e => .error (.ofTarget e)

/-- Answers what a source says, or fails. -/
def ofSource {α : Type} (said : Except GitHub.Error α) : Command α :=
  ofExcept <|
    match said with
    | .ok a => .ok a
    | .error e => .error (.github e)

/-! ### Commands -/

/-- The tags of a list as the banner shows them. -/
def showTags (tags : List Text) : Text :=
  if tags.isEmpty then "(none)".toList else ", ".toList.intercalate tags

/-- Prints the plan of a pull request. -/
def tests (target : Target) (asked : Option Text) (json : Bool) (settings : Settings) :
    Command Unit := do
  let source ← connect settings
  let pr ← find target settings source
  let tags := settings.tagsOr asked
  if !json then
    sayIn .cyan ("🔍 Picking the tests to run based on ".toList ++ pr.display
      ++ " with tags ".toList ++ showTags tags)
  let (body, comments) ← ofSource (source.text pr)
  printPlan json (Plan.ofPullRequest body tags comments)

/-- Decides whether the suite should run for a pull request. One that says nothing about it is
skipped. -/
def shouldRun (target : Target) (settings : Settings) : Command Bool := do
  let source ← connect settings
  let pr ← find target settings source
  let body ← ofSource (source.body pr)
  let plan := Plan.ofPullRequest body [] []
  if plan.shouldRunSuite = some true then
    sayIn .green ("✅ The pull request ".toList ++ pr.display
      ++ " should run Cypress tests".toList)
    return true
  else
    sayIn .yellow ("⏭  The pull request ".toList ++ pr.display
      ++ " should skip Cypress tests".toList)
    return false

/-- Prints comments, which are numbered from `number` on. -/
def sayComments (number : Nat) : List Text → Command Unit
  | [] => return
  | comment :: rest => do
    sayIn .cyan ("💬 Comment ".toList ++ Text.ofNat number)
    say comment
    say []
    sayComments (number + 1) rest

/-- Prints the text of a pull request and then its plan. -/
def body (target : Target) (asked : Option Text) (settings : Settings) : Command Unit := do
  let source ← connect settings
  let pr ← find target settings source
  let (body, comments) ← ofSource (source.text pr)
  sayIn .boldCyan ("📄 Body of ".toList ++ pr.display)
  say body
  say []
  sayComments 1 comments
  printPlan false (Plan.ofPullRequest body (settings.tagsOr asked) comments)

end Command
end PullPlan
