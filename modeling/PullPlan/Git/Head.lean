import PullPlan.Git.Reference
import PullPlan.Git.Store

/-!
# The commit that is checked out

`Git.headCommit` finds and opens the repository around a directory, follows its `HEAD` to an id, and
checks that the id is that of a commit. Each of the three has its own error.
-/

namespace PullPlan
namespace Git

/-- Why there is no commit that is checked out. -/
inductive Error where
  /-- There is no repository around a directory. -/
  | noRepository (start : Text)
  /-- `HEAD` is missing or does not lead to an id. -/
  | noHead
  /-- `HEAD` leads to something that is no commit. -/
  | notCommit
  deriving DecidableEq

/-- The wording of an error. -/
def Error.message : Error → Text
  | .noRepository start => "No git repository found from ".toList ++ start
  | .noHead => "Repository has no HEAD".toList
  | .notCommit => "HEAD does not point to a commit".toList

/-- Whether an id is that of a commit in a repository. Relative names of further directories of
objects are seen from the directory `working`. -/
def isCommit (files : FileTree) (objects : ObjectStore) (working : Path)
    (repository : Repository) (id : Text) : Bool :=
  match objectDirectories? files working (repository.common ++ ["objects".toList]) with
  | some directories => kindIn? objects directories id = some .commit
  | none => false

/-- The commit that is checked out in the repository around a directory, which is given by its
name seen from another directory. -/
def headCommit (files : FileTree) (objects : ObjectStore) (directory : Path) (name : Text) :
    Except Error Text :=
  match (follow? files directory name).bind (repositoryAround? files) with
  | none => .error (.noRepository name)
  | some repository =>
    match headId? files repository with
    | none => .error .noHead
    | some id =>
      if isCommit files objects directory repository id then .ok id else .error .notCommit

end Git
end PullPlan
