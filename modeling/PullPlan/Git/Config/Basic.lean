import PullPlan.Git.Content

/-!
# Configurations

A configuration is a list of entries, each with a full name, such as `core.bare`, and perhaps a
value. Of several entries with one name the last one counts: `Config.find?_append` says so for
configurations that follow each other.
-/

namespace PullPlan
namespace Git

/-- A named value; a name may stand alone. -/
structure Config.Entry where
  /-- The section, a dot and the name in the section. -/
  name : Text
  /-- What stands behind the equals sign, if there is one. -/
  value : Option Text
  deriving DecidableEq

/-- The entries of a configuration, in their order. -/
structure Config where
  entries : List Config.Entry
  deriving DecidableEq

namespace Config

/-- The last entry with a name. -/
def find? (config : Config) (name : Text) : Option Entry :=
  config.entries.reverse.find? fun entry => entry.name = name

/-- One configuration after another. The later one wins where both have a name. -/
def append (first second : Config) : Config := ⟨first.entries ++ second.entries⟩

theorem find?_append (first second : Config) (name : Text) :
    (first.append second).find? name = (second.find? name).or (first.find? name) := by
  simp [find?, append, List.find?_append]

end Config
end Git
end PullPlan
