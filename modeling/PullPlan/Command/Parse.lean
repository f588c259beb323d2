import PullPlan.Command.Basic

/-!
# Plans of saved text

The command `parse` reads the body and the comments of a pull request from files and prints their
plan. The body may come in on the standard input, which is named by a minus sign.
-/

namespace PullPlan
namespace Command

/-- Reads a file with the text of a pull request. -/
def readFile (name : Text) : Command Text := look fun surroundings files =>
  match files.readText surroundings.directory name with
  | .ok text => .ok text
  | .error e => .error (.unreadable name e)

/-- Reads the standard input. -/
def readInput : Command Text := look fun surroundings _ =>
  match FileTree.asText surroundings.input with
  | .ok text => .ok text
  | .error e => .error (.unreadableInput e)

/-- The name of the standard input. -/
def inputName : Text := ['-']

/-- Reads several files. -/
def readFiles : List Text → Command (List Text)
  | [] => return []
  | name :: rest => do
    let text ← readFile name
    let texts ← readFiles rest
    return text :: texts

/-- Prints the plan of a saved body and saved comments. -/
def parse (input : Text) (comments : List Text) (asked : Option Text) (json : Bool)
    (settings : Settings) : Command Unit := do
  let body ← if input = inputName then readInput else readFile input
  let comments ← readFiles comments
  printPlan json (Plan.ofPullRequest body (settings.tagsOr asked) comments)

end Command
end PullPlan
