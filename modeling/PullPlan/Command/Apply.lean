import PullPlan.Command.Inquiry

/-!
# Applying a plan

The command `apply` merges the plan of a pull request into a runner configuration file.
`applyToFile` is the part of it that works on files: it prints the merged configuration, or it
writes it to a file and prints a report.
-/

namespace PullPlan
namespace Command

/-- Loads a runner configuration; a file that is not seen sets nothing. -/
def loadConfig (name : Text) : Command RunnerConfig := look fun surroundings files =>
  match RunnerConfig.loadOrEmpty files surroundings.directory name with
  | .ok config => .ok config
  | .error problem => .error (.runnerConfig problem)

/-- Writes a runner configuration to a file. -/
def saveConfig (config : RunnerConfig) (name : Text) : Command Unit :=
  change fun surroundings files =>
    match config.save files surroundings.directory name with
    | .ok files => .ok files
    | .error problem => .error (.runnerConfig problem)

/-- Prints what a merge changed. -/
def printReport (report : MergeReport) : Command Unit :=
  print fun colored => (report.lines colored).flatMap fun line => line ++ ['\n']

/-- Merges a plan into the runner configuration of a file. Without a name for the merged
configuration it is printed. -/
def applyToFile (plan : Plan) (input : Text) (merged : Option Text) (options : MergeOptions) :
    Command Unit := do
  let config ← loadConfig input
  let applied := config.applyPlan plan options
  match merged with
  | none => say applied.config.text
  | some name =>
    printReport applied.report
    saveConfig applied.config name
    sayIn .green ("✅ Wrote ".toList ++ name)

/-- Where `apply` reads and writes, and what it leaves out. -/
structure ApplyRequest where
  /-- The file with the runner configuration. -/
  runnerConfig : Text
  /-- The file for the merged configuration. -/
  merged : Option Text
  /-- The tags to look for. -/
  tags : Option Text
  /-- Whether the base URL is left alone. -/
  keepBaseUrl : Bool
  /-- Whether the grep filter is left alone. -/
  keepTests : Bool
  deriving DecidableEq

/-- The merge options of a request: both the settings and the request have to allow a part. -/
def ApplyRequest.options (request : ApplyRequest) (settings : Settings) : MergeOptions :=
  ⟨settings.merge.setBaseUrl && !request.keepBaseUrl, settings.merge.setTests && !request.keepTests⟩

/-- Merges the plan of a pull request into a runner configuration file. -/
def apply (target : Target) (request : ApplyRequest) (settings : Settings) : Command Unit := do
  let source ← connect settings
  let pr ← find target settings source
  let (body, comments) ← ofSource (source.text pr)
  let plan := Plan.ofPullRequest body (settings.tagsOr request.tags) comments
  noteIn .cyan ("🔧 Applying tests picked from ".toList ++ pr.display)
  applyToFile plan request.runnerConfig request.merged (request.options settings)

end Command
end PullPlan
