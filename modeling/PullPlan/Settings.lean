import PullPlan.FileTree
import PullPlan.GitHub.Client
import PullPlan.RunnerConfig.Merge
import PullPlan.Toml.Decoding
import PullPlan.Toml.Reader

/-!
# Settings

What a project configures: its repository, the tags to look for, how GitHub is reached, and what is
merged into a runner configuration. `Settings.load` reads the settings of a project's directory and
`Settings.loadFrom` those of a named file.
-/

namespace PullPlan

/-- The settings of a project. -/
structure Settings where
  /-- The owner of the repository. -/
  owner : Option Text
  /-- The name of the repository. -/
  repo : Option Text
  /-- The tags to look for. -/
  tags : List Text
  /-- How GitHub is reached. -/
  github : GitHub.Settings
  /-- What is merged into a runner configuration. -/
  merge : MergeOptions
  deriving DecidableEq

namespace Settings

/-- The settings of a project that configures nothing. -/
def default : Settings := ⟨none, none, [], .default, .all⟩

instance : Inhabited Settings := ⟨default⟩

/-! ### Decoding -/

open Toml (Value)

/-- Reads how GitHub is reached. -/
def githubOf? (value : Value) : Option GitHub.Settings := do
  guard value.isRecord
  let standard := GitHub.Settings.default
  let apiUrl ← value.field? standard.apiUrl Value.text? 0 "api_url".toList
  let timeout ← value.field? standard.timeoutSeconds Value.natural? 1 "timeout_secs".toList
  let userAgent ← value.field? standard.userAgent Value.text? 2 "user_agent".toList
  return ⟨apiUrl, timeout, userAgent⟩

/-- Reads what is merged into a runner configuration. -/
def mergeOf? (value : Value) : Option MergeOptions := do
  guard value.isRecord
  let setBaseUrl ← value.field? true Value.bool? 0 "set_base_url".toList
  let setTests ← value.field? true Value.bool? 1 "set_tests".toList
  return ⟨setBaseUrl, setTests⟩

/-- Reads settings. -/
def ofValue? (value : Value) : Option Settings := do
  guard value.isRecord
  let owner ← value.field? none (fun v => v.text?.map some) 0 "owner".toList
  let repo ← value.field? none (fun v => v.text?.map some) 1 "repo".toList
  let tags ← value.field? [] (Value.list? Value.text?) 2 "tags".toList
  let github ← value.field? GitHub.Settings.default githubOf? 3 "github".toList
  let merge ← value.field? MergeOptions.all mergeOf? 4 "runner".toList
  return ⟨owner, repo, tags, github, merge⟩

/-! ### Files -/

/-- Why there are no settings. -/
inductive Error where
  /-- The named file cannot be read. -/
  | unreadable (name : Text) (error : FileError)
  /-- The named file does not hold settings. -/
  | invalid (name : Text)
  deriving DecidableEq

/-- The wording of an error. -/
def Error.message : Error → Text
  | .unreadable name error =>
    "Failed to read config ".toList ++ name ++ ": ".toList ++ error.message
  | .invalid name => "Invalid config ".toList ++ name

/-- Reads the settings of a file, which must be there. -/
def loadFrom (files : FileTree) (directory : Path) (name : Text) : Except Error Settings :=
  match files.readText directory name with
  | .error e => .error (.unreadable name e)
  | .ok content =>
    match (Value.ofText? content).bind ofValue? with
    | none => .error (.invalid name)
    | some settings => .ok settings

/-- The name of the file with a project's settings. -/
def fileName : Text := "grep-pr-tests.toml".toList

/-- The name of the settings file in a project's directory. -/
def nameIn (root : Text) : Text :=
  if root.isEmpty || root.getLast? = some '/' then root ++ fileName else root ++ '/' :: fileName

/-- Reads the settings in a project's directory. Where no file is seen, nothing is configured. -/
def load (files : FileTree) (directory : Path) (root : Text) : Except Error Settings :=
  if files.has directory (nameIn root) then loadFrom files directory (nameIn root)
  else .ok default

/-- The tags to look for: those asked for or, where none are, the configured ones. -/
def tagsOr (settings : Settings) (asked : Option Text) : List Text :=
  match asked with
  | some raw => Tags.split raw
  | none => settings.tags

end Settings
end PullPlan
