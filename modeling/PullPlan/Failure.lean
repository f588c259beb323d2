import PullPlan.RunnerConfig.File
import PullPlan.Settings
import PullPlan.Target

/-!
# Failures

What can make a command fail, and how it is worded.
-/

namespace PullPlan

/-- Why a command failed. -/
inductive Failure where
  /-- What requests are run on could not be set up, so that no command was started. -/
  | runtime (error : SystemError)
  /-- The directory of the process could not be told. -/
  | directory (error : SystemError)
  /-- The settings could not be loaded. -/
  | settings (error : Settings.Error)
  /-- The given web address is none of a pull request. -/
  | url (error : UrlError)
  /-- The pull request could not be found or fetched. -/
  | github (error : GitHub.Error)
  /-- A file with the text of a pull request could not be read. -/
  | unreadable (name : Text) (error : FileError)
  /-- The text of a pull request could not be read from the standard input. -/
  | unreadableInput (error : FileError)
  /-- The runner configuration could not be read or written. -/
  | runnerConfig (problem : RunnerConfig.FileProblem)
  deriving DecidableEq

namespace Failure

/-- The wording of a failure. -/
def message : Failure → Text
  | .runtime error => "Failed to create tokio runtime: ".toList ++ error.message
  | .directory error => error.message
  | .settings error => error.message
  | .url error => error.message
  | .github error => error.message
  | .unreadable name error => "Failed to read ".toList ++ name ++ ": ".toList ++ error.message
  | .unreadableInput error =>
    "Failed to read pull request body from stdin: ".toList ++ error.message
  | .runnerConfig problem => problem.message

/-- The failure of a target that means no pull request. -/
def ofTarget : Target.Error → Failure
  | .url error => .url error
  | .github error => .github error

end Failure
end PullPlan
