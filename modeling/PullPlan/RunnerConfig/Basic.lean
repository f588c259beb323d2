import PullPlan.Json.Decoding
import PullPlan.Json.Printer

/-!
# Runner configurations

The configuration file of the test runner: the base URL, the environment, the spec files, and keys
that this library knows nothing about. Those are read and written back with their values.
-/

namespace PullPlan

/-- A configuration of the test runner. -/
structure RunnerConfig where
  /-- The base URL of the application under test. -/
  baseUrl : Option Text
  /-- The environment variables. -/
  env : Dict Json
  /-- The spec files. -/
  specs : List Text
  /-- All other keys. -/
  other : Dict Json

namespace RunnerConfig

/-- The configuration that sets nothing. -/
def empty : RunnerConfig := ⟨none, .empty, [], .empty⟩

instance : Inhabited RunnerConfig := ⟨empty⟩

/-- The key of the base URL. -/
def baseUrlKey : Text := "baseUrl".toList

/-- The key of the environment. -/
def envKey : Text := "env".toList

/-- The key of the spec files. -/
def specsKey : Text := "specs".toList

/-- The keys with a field of their own. -/
def knownKeys : List Text := [baseUrlKey, envKey, specsKey]

/-! ### Writing -/

/-- The entries of the written object: the fields in their order, without a missing base URL and
without an empty list of specs, and then the other keys. -/
def entries (config : RunnerConfig) : List (Text × Json) :=
  (match config.baseUrl with
    | some url => [(baseUrlKey, .string url)]
    | none => [])
    ++ [(envKey, .ofDict config.env)]
    ++ (if config.specs.isEmpty then [] else [(specsKey, .ofTexts config.specs)])
    ++ config.other.entries

/-- The configuration as a JSON object. -/
def toJson (config : RunnerConfig) : Json := .object config.entries

/-! ### Reading -/

/-- How deep the value of a key may nest: the object around the keys counts for one level. -/
def valueDepth : Nat := Json.depthLimit - 1

/-- The entries of an object as a dictionary. -/
def dict? (tree : Json.Tree) : Option (Dict Json) :=
  match tree.value? valueDepth with
  | some (.object entries) => some (Dict.ofList entries)
  | _ => none

/-- The value of a field that may be missing. -/
def field? {α : Type} (missing : α) (decode? : Json.Tree → Option α) :
    Option Json.Tree → Option α
  | none => some missing
  | some tree => decode? tree

/-- Reads a configuration from an object. A known key may stand only once; of another key the last
value stays. -/
def ofTree? (tree : Json.Tree) : Option RunnerConfig := do
  let members ← tree.members?
  let baseUrl ← Json.Tree.only? baseUrlKey members
  let env ← Json.Tree.only? envKey members
  let specs ← Json.Tree.only? specsKey members
  let baseUrl ← field? none (Json.Tree.nullable? Json.Tree.text?) baseUrl
  let env ← field? .empty dict? env
  let specs ← field? [] (Json.Tree.list? Json.Tree.text?) specs
  let other ← (members.filter fun member => !knownKeys.contains member.1).mapM fun member =>
    (member.2.value? valueDepth).map fun value => (member.1, value)
  return ⟨baseUrl, env, specs, Dict.ofList other⟩

/-- Reads a configuration from a text. -/
def ofText? (t : Text) : Option RunnerConfig := do
  let tree ← Json.Tree.ofText? t
  ofTree? tree

end RunnerConfig
end PullPlan
