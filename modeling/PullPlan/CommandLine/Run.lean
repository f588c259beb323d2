import PullPlan.CommandLine.Invocation

/-!
# Running the tool

`CommandLine.run` is the whole tool as a function: from the arguments, the surroundings and the
files to what is printed, the exit status and the files afterwards.

The status is 0 for success, 2 for arguments that cannot be read, and 1 for a failure. Only
`should-run` differs: it has 1 for a suite that is skipped and so 2 for a failure. But it does not
differ when the tool fails before it looks at what it is asked for, because the system refuses the
threads that requests are run on: the status of that failure is always 1.
-/

namespace PullPlan
namespace CommandLine

/-- What the tool did. -/
structure Report where
  /-- The exit status. -/
  exit : Nat
  /-- The text on the standard output. -/
  output : Text
  /-- The text on the standard error. -/
  notes : Text
  /-- The files afterwards. -/
  files : FileTree
  /-- The failure, if there was one. -/
  failure : Option Failure

/-- The name of the tool. -/
def toolName : Text := "grep-pr-tests".toList

/-- The version of the tool. -/
def toolVersion : Text := "0.1.0".toList

/-- How the tool is used. -/
def usage : Text :=
  "Usage: grep-pr-tests [OPTIONS] <COMMAND>\n\n".toList
    ++ "Commands: tests, should-run, body, parse, apply, completions, help\n".toList
    ++ "Options: --config <FILE>, --verbose, --help, --version\n".toList

/-- The exit status of `should-run` for a suite that is skipped. -/
def skipStatus : Nat := 1

/-- Whether the environment asks for coloured output. -/
def isColored (variableOf : Text → Option Text) : Bool :=
  match variableOf "CLICOLOR_FORCE".toList with
  | some value => value ≠ ['0']
  | none => false

/-- Whether the environment asks for styles in the lines about arguments that cannot be read. Any
value does, also one that turns the colours of the output off. -/
def isMisuseStyled (variableOf : Text → Option Text) : Bool :=
  match variableOf "CLICOLOR_FORCE".toList with
  | some value => !value.isEmpty
  | none => false

/-- The settings of an invocation: those of the named file, or else those of the directory. -/
def loadSettings (config : Option Text) : Command Settings :=
  Command.look fun surroundings files =>
    match config with
    | some name => (Settings.loadFrom files surroundings.directory name).mapError .settings
    | none =>
      match surroundings.directoryRefusal with
      | some error => .error (.directory error)
      | none =>
        (Settings.load files surroundings.directory
          (FileTree.nameOf surroundings.directory)).mapError .settings

/-- Does what an action asks for. The answer is the exit status. -/
def Action.run (action : Action) (config : Option Text) : Command Nat :=
  match action with
  | .completions _ => return 0
  | .tests target tags json => do
    Command.tests target tags json (← loadSettings config)
    return 0
  | .shouldRun target => do
    let runs ← Command.shouldRun target (← loadSettings config)
    return if runs then 0 else skipStatus
  | .body target tags => do
    Command.body target tags (← loadSettings config)
    return 0
  | .parse input comments tags json => do
    Command.parse input comments tags json (← loadSettings config)
    return 0
  | .apply target request => do
    Command.apply target request (← loadSettings config)
    return 0

/-- The exit status of an action that failed. -/
def Action.failureStatus : Action → Nat
  | .shouldRun _ => 2
  | _ => 1

/-- The line about a failure. -/
def failureLine (colored : Bool) (failure : Failure) : Text :=
  Style.paint colored .red ("Error: ".toList ++ failure.message) ++ ['\n']

/-- The lines about arguments that cannot be read. -/
def misuseLines (styled : Bool) : Text :=
  Style.paint styled .red "error:".toList ++ " invalid arguments\n\n".toList ++ usage

/-- What is printed when the reading of the arguments ended early. -/
def Stop.report (stop : Stop) (styled : Bool) (files : FileTree) : Report :=
  match stop with
  | .misuse => ⟨2, [], misuseLines styled, files, none⟩
  | .nothing => ⟨2, [], usage, files, none⟩
  | .help => ⟨0, usage, [], files, none⟩
  | .version none => ⟨0, toolName ++ ' ' :: toolVersion ++ ['\n'], [], files, none⟩
  | .version (some name) =>
    ⟨0, toolName ++ '-' :: name ++ ' ' :: toolVersion ++ ['\n'], [], files, none⟩

/-- What is reported when the threads were refused that requests are run on. -/
def refusedReport (error : SystemError) (colored : Bool) (files : FileTree) : Report :=
  ⟨1, [], failureLine colored (.runtime error), files, some (.runtime error)⟩

/-- Runs an invocation. -/
def Invocation.run (invocation : Invocation) (surroundings : Surroundings) (files : FileTree) :
    Report :=
  match surroundings.runtimeRefusal with
  | some error => refusedReport error surroundings.colored files
  | none =>
    let outcome := invocation.action.run invocation.config surroundings files
    match outcome.result with
    | .ok status => ⟨status, outcome.output, outcome.notes, outcome.files, none⟩
    | .error failure =>
      ⟨invocation.action.failureStatus, outcome.output,
        outcome.notes ++ failureLine surroundings.colored failure, outcome.files, some failure⟩

/-- Runs the tool with arguments. -/
def run (arguments : List Text) (surroundings : Surroundings) (files : FileTree) : Report :=
  match Invocation.ofArguments surroundings.variableOf arguments with
  | .error stop => stop.report (isMisuseStyled surroundings.variableOf) files
  | .ok invocation =>
    invocation.run { surroundings with colored := isColored surroundings.variableOf } files

end CommandLine
end PullPlan
