import PullPlan.Git.Config.Reader
import PullPlan.Text.Glob

/-!
# Configurations in several files

A file may include others. Their entries stand behind the entry that names the file, which may set
a condition: that the repository is in a certain place, or that a certain branch is checked out.

* `Config.load` reads a file and those that it includes.
* `Condition.holds` decides a condition.
-/

namespace PullPlan
namespace Git
namespace Config

/-! ### Conditions -/

/-- A condition under which a file is included. -/
inductive Condition where
  /-- The place of the repository matches a pattern. With `folded`, capital letters count as small
  ones. -/
  | place (folded : Bool) (pattern : Text)
  /-- The name of the branch matches a pattern. -/
  | branch (pattern : Text)
  deriving DecidableEq

/-- Reads a condition. -/
def Condition.ofText? (t : Text) : Option Condition :=
  match Text.after? "gitdir:".toList t with
  | some pattern => some (.place false pattern)
  | none =>
    match Text.after? "gitdir/i:".toList t with
    | some pattern => some (.place true pattern)
    | none => (Text.after? "onbranch:".toList t).map .branch

/-- A pattern with a slash at its end matches everything in a directory. -/
def withInside (pattern : Text) : Text :=
  if pattern.getLast? = some '/' then pattern ++ ['*', '*'] else pattern

/-- The pattern for the place of a repository. One that starts with `./` is seen from the directory
of the file that has it, and any other one that does not start at the root may match anywhere. The
home directory is not known here. -/
def placePattern? (directory : Path) (pattern : Text) : Option Text :=
  match withInside pattern with
  | '.' :: '/' :: rest => some (FileTree.nameOf directory ++ '/' :: rest)
  | '~' :: '/' :: _ => none
  | '/' :: rest => some ('/' :: rest)
  | pattern => some ("**/".toList ++ pattern)

/-- The name of the branch that the content of `HEAD` names. -/
def branchOf? (head : Text) : Option Text :=
  Text.after? "ref: refs/heads/".toList (heldName head)

/-- Whether a condition in a file of a directory holds for the repository at a path. -/
def Condition.holds (files : FileTree) (own directory : Path) (condition : Condition) : Bool :=
  match condition with
  | .place folded pattern =>
    (placePattern? directory pattern).any fun pattern =>
      Glob.accepts folded (octets pattern) (octets (FileTree.nameOf own))
  | .branch pattern =>
    ((textAt? files (own ++ ["HEAD".toList])).bind branchOf?).any fun branch =>
      Glob.accepts false (octets (withInside pattern)) (octets branch)

/-! ### Files -/

/-- The condition of an entry that includes a file under one. -/
def Entry.condition? (entry : Entry) : Option Condition := do
  let rest ← Text.after? "includeif.".toList entry.name
  let condition ← Text.after? ".path".toList.reverse rest.reverse
  Condition.ofText? condition.reverse

/-- Whether an entry in a file of a directory includes a file. -/
def Entry.includes (files : FileTree) (own directory : Path) (entry : Entry) : Bool :=
  entry.name = "include.path".toList
    || entry.condition?.any fun condition => condition.holds files own directory

/-- How many files may be open at a time, each included by the one before. -/
def maxDepth : Nat := 10

/-- Reads the file at a path and those that it includes, for the repository at the path `own`. There
need not be such files; those in the home directory are not looked for. The first argument is the
number of files that may still be opened. -/
def load (files : FileTree) (own : Path) : Nat → Path → Option Config
  | 0, path => if (files.content? path).isSome then none else some ⟨[]⟩
  | depth + 1, path =>
    match textAt? files path with
    | none => some ⟨[]⟩
    | some content => do
      let config ← ofText? content
      let directory := path.dropLast
      let parts ← config.entries.mapM fun entry =>
        match entry.value with
        | none => some [entry]
        | some name =>
          if !entry.includes files own directory || Text.opensWith ['~', '/'] name then some [entry]
          else
            match files.walk (FileTree.origin directory name) (FileTree.components name) with
            | .ok path => (load files own depth path).map fun more => entry :: more.entries
            | .error .nameTooLong => none
            | .error _ => some [entry]
      return ⟨parts.flatten⟩

end Config
end Git
end PullPlan
