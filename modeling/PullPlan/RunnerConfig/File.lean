import PullPlan.FileTree
import PullPlan.RunnerConfig.Merge

/-!
# Runner configuration files

Reading a runner configuration from a file and writing one. A file that holds no configuration is an
error. A missing file counts as the configuration that sets nothing, and for missing is taken what
is not seen.
-/

namespace PullPlan
namespace RunnerConfig

/-- Why a configuration file cannot be used. -/
inductive FileProblem where
  /-- The file cannot be read or written. -/
  | file (error : FileError)
  /-- The file does not hold a configuration. -/
  | json
  deriving DecidableEq

/-- The wording of a problem. -/
def FileProblem.message : FileProblem → Text
  | .file error => error.message
  | .json => "Invalid runner config".toList

/-- Reads a configuration file. -/
def load (files : FileTree) (directory : Path) (name : Text) : Except FileProblem RunnerConfig :=
  match files.readText directory name with
  | .error e => .error (.file e)
  | .ok content =>
    match ofText? content with
    | none => .error .json
    | some config => .ok config

/-- Reads a configuration file; one that is not seen sets nothing. -/
def loadOrEmpty (files : FileTree) (directory : Path) (name : Text) :
    Except FileProblem RunnerConfig :=
  if files.has directory name then load files directory name else .ok empty

/-- The text of a configuration as it is written to a file. -/
def text (config : RunnerConfig) : Text := config.toJson.pretty

/-- Writes a configuration file. -/
def save (config : RunnerConfig) (files : FileTree) (directory : Path) (name : Text) :
    Except FileProblem FileTree :=
  match files.write directory name config.text with
  | .error e => .error (.file e)
  | .ok files => .ok files

end RunnerConfig
end PullPlan
