import PullPlan.Git.Content
import PullPlan.Git.Object

/-!
# Where objects are kept

The objects of a repository are in a directory, which may name further ones, and those may name
others again. An object is looked for in all of them.

`objectDirectories?` finds the directories, and `kindIn?` looks an id up in them.
-/

namespace PullPlan
namespace Git

/-- The kinds of the objects in a directory of objects, by their ids. -/
abbrev ObjectStore := Path → Text → Option ObjectKind

/-- How many directories of objects may follow each other, each named by the one before. -/
def maxAlternates : Nat := 6

/-- The names in the content of a file that names further directories of objects: each has a line
of its own, and lines that start with `#` are comments. -/
def alternateNames (content : Text) : List Text :=
  let lines := fullLines ((beforeNul content).map fun c => if c = '\r' then '\n' else c)
  let names := lines.map fun line => line.filter (· ≠ '\n')
  names.filter fun name => !name.isEmpty && name.head? ≠ some '#'

/-- Adds a directory of objects and those that it names to the directories that are known. A
directory that cannot be found is left out. Relative names are seen from the directory `working`;
but those that start with a dot in the first directory of all are seen from that one. The first
argument says how many more may follow each other. -/
def withAlternates? (files : FileTree) (working : Path) :
    Nat → List Path → Path → Option (List Path)
  | count, known, path =>
    if known.contains path then some known
    else
      match count, files.get? (path ++ ["info".toList, "alternates".toList]) with
      | _, none => some (known ++ [path])
      | 0, _ => some (known ++ [path])
      | _, some .directory => none
      | count + 1, some (.file content) =>
        (alternateNames (Utf8.decodeLossy content)).foldlM (fun all name =>
          let origin := if known.isEmpty && name.head? = some '.' then path else working
          match follow? files origin name with
          | some path => withAlternates? files working count all path
          | none => some all) (known ++ [path])

/-- The directories that have the objects of a repository, of which the given one is the first. -/
def objectDirectories? (files : FileTree) (working path : Path) : Option (List Path) :=
  withAlternates? files working maxAlternates [] path

/-- The kind of the object with an id, from the first directory that has it. -/
def kindIn? (objects : ObjectStore) (directories : List Path) (id : Text) : Option ObjectKind :=
  directories.findSome? fun directory => objects directory id

end Git
end PullPlan
