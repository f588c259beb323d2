import PullPlan.Command.Apply
import PullPlan.Command.Parse
import PullPlan.CommandLine.Options

/-!
# Invocations

What a user asks for on the command line. `Invocation.ofArguments` reads the arguments: first the
options of the tool, then the name of a subcommand, and then the options of the subcommand, among
which those of the tool may stand as well.
-/

namespace PullPlan
namespace CommandLine

/-- The subcommands with what they are told. -/
inductive Action where
  | tests (target : Target) (tags : Option Text) (json : Bool)
  | shouldRun (target : Target)
  | body (target : Target) (tags : Option Text)
  | parse (input : Text) (comments : List Text) (tags : Option Text) (json : Bool)
  | apply (target : Target) (request : Command.ApplyRequest)
  | completions (shell : Text)
  deriving DecidableEq

/-- What a user asks for. -/
structure Invocation where
  /-- The file with the settings. -/
  config : Option Text
  /-- The subcommand. -/
  action : Action
  deriving DecidableEq

/-! ### Forms -/

/-- An option that may be given once. -/
def single (name : String) (letter : Option Char) (role : OptionRole) : OptionForm :=
  ⟨name.toList, letter, role, false⟩

/-- The options of the tool. -/
def toolForms : List OptionForm :=
  [single "config" none (.value .file), ⟨"verbose".toList, some 'v', .flag, true⟩,
    single "help" (some 'h') .help, single "version" (some 'V') .version]

/-- The options that name a pull request. -/
def targetForms : List OptionForm :=
  [single "owner" (some 'o') (.value .text), single "repo" (some 'r') (.value .text),
    single "pull" (some 'p') (.value .number), single "commit" (some 'c') (.value .text),
    single "url" none (.value .text)]

/-- The option for the tags. -/
def tagsForm : OptionForm := single "tags" (some 't') (.value .text)

/-- The option for JSON output. -/
def jsonForm : OptionForm := single "json" (some 'j') .flag

/-- The option for a file with a comment. -/
def commentForm : OptionForm := ⟨"comment".toList, none, .value .file, true⟩

/-- The options of `apply` for files and for what is left alone. -/
def applyForms : List OptionForm :=
  [single "runner-config" none (.value .file), single "out" none (.value .file),
    single "no-base-url" none .flag, single "no-tests" none .flag]

/-- The shells with completions. -/
def shells : List Text :=
  ["bash".toList, "elvish".toList, "fish".toList, "powershell".toList, "zsh".toList]

/-! ### Reading the options of a subcommand -/

/-- The variable that may hold the number of the pull request. -/
def numberVariable : Text := "TEST_PULL_REQUEST_NUMBER".toList

/-- The number of the pull request, from its option or else from its variable. -/
def numberOf (variableOf : Text → Option Text) (found : Found) : Except Stop (Option Nat) :=
  match (found.value? "pull".toList).or (variableOf numberVariable) with
  | none => .ok none
  | some t =>
    match Text.word64? t with
    | some number => .ok (some number)
    | none => .error .misuse

/-- The target of the found options. A web address excludes the options that name the same parts. -/
def targetOf (variableOf : Text → Option Text) (found : Found) : Except Stop Target := do
  let number ← numberOf variableOf found
  let target : Target :=
    ⟨found.value? "owner".toList, found.value? "repo".toList, number,
      found.value? "commit".toList, found.value? "url".toList⟩
  if target.url.isSome && (target.owner.isSome || target.repo.isSome || target.commit.isSome) then
    .error .misuse
  else .ok target

/-- The tags of the found options. -/
def tagsOf (found : Found) : Option Text := found.value? "tags".toList

/-- Whether JSON output is asked for. -/
def jsonOf (found : Found) : Bool := found.has "json".toList

/-- The request of `apply`, which needs the file with the runner configuration. -/
def applyRequestOf (found : Found) : Except Stop Command.ApplyRequest :=
  match found.value? "runner-config".toList with
  | none => .error .misuse
  | some file =>
    .ok
      { runnerConfig := file
        merged := found.value? "out".toList
        tags := tagsOf found
        keepBaseUrl := found.has "no-base-url".toList
        keepTests := found.has "no-tests".toList }

/-- The operand, which is needed. -/
def operandOf (found : Found) : Except Stop Text :=
  match found.operand with
  | none => .error .misuse
  | some operand => .ok operand

/-! ### Subcommands -/

/-- How a subcommand is written, and what it means. -/
structure SubcommandForm where
  /-- Its name. -/
  name : Text
  /-- Its options. -/
  options : List OptionForm
  /-- Its operands. -/
  operand : OperandForm
  /-- What the found options mean, by the environment variables. -/
  action : (Text → Option Text) → Found → Except Stop Action

/-- The subcommands. -/
def subcommands : List SubcommandForm :=
  [{ name := "tests".toList
     options := targetForms ++ [tagsForm, jsonForm]
     operand := .none
     action := fun variableOf found => do
      let target ← targetOf variableOf found
      return .tests target (tagsOf found) (jsonOf found) },
   { name := "should-run".toList
     options := targetForms
     operand := .none
     action := fun variableOf found => do
      let target ← targetOf variableOf found
      return .shouldRun target },
   { name := "body".toList
     options := targetForms ++ [tagsForm]
     operand := .none
     action := fun variableOf found => do
      let target ← targetOf variableOf found
      return .body target (tagsOf found) },
   { name := "parse".toList
     options := [commentForm, tagsForm, jsonForm]
     operand := .single fun _ => true
     action := fun _ found => do
      let input ← operandOf found
      return .parse input (found.values "comment".toList) (tagsOf found) (jsonOf found) },
   { name := "apply".toList
     options := targetForms ++ applyForms ++ [tagsForm]
     operand := .none
     action := fun variableOf found => do
      let target ← targetOf variableOf found
      let request ← applyRequestOf found
      return .apply target request },
   { name := "completions".toList
     options := []
     operand := .single fun shell => shells.contains shell
     action := fun _ found => do
      let shell ← operandOf found
      return .completions shell }]

/-- The subcommand of a name. -/
def subcommand? (name : Text) : Option SubcommandForm :=
  subcommands.find? fun form => form.name = name

/-- The subcommand that shows help on the others. -/
def helpName : Text := "help".toList

/-- Says which subcommand the version is asked of. -/
def Stop.within (subcommand : Text) : Stop → Stop
  | .version _ => .version (some subcommand)
  | stop => stop

/-- Reads the arguments after the name of a subcommand. -/
def SubcommandForm.read (form : SubcommandForm) (variableOf : Text → Option Text)
    (arguments : List Text) : Except Stop (Found × Action) := do
  let (found, _) ← CommandLine.read (toolForms ++ form.options) form.operand .empty arguments
  let action ← form.action variableOf found
  return (found, action)

/-- What ends the reading after a question for help: the question is answered if it is about the
tool or about one subcommand. -/
def helpOn : List Text → Stop
  | [] => .help
  | [name] => if name = helpName || (subcommand? name).isSome then .help else .misuse
  | _ => .misuse

namespace Invocation

/-- The invocation that arguments write. The file with the settings may be named before and after
the subcommand; the later one counts. -/
def ofArguments (variableOf : Text → Option Text) (arguments : List Text) :
    Except Stop Invocation := do
  let (found, rest) ← CommandLine.read toolForms .final .empty arguments
  match rest with
  | [] => .error (if found.options.isEmpty then .nothing else .misuse)
  | name :: rest =>
    if name = helpName then .error (helpOn rest)
    else
      match subcommand? name with
      | none => .error .misuse
      | some form =>
        match form.read variableOf rest with
        | .error stop => .error (stop.within name)
        | .ok (inner, action) =>
          .ok ⟨(inner.value? "config".toList).or (found.value? "config".toList), action⟩

end Invocation
end CommandLine
end PullPlan
