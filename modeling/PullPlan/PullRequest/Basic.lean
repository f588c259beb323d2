import PullPlan.Json.Decoding

/-!
# Pull requests

A pull request is named by its repository and its number.
-/

namespace PullPlan

/-- The name of a pull request. -/
structure PullRequest where
  /-- The owner of the repository. -/
  owner : Text
  /-- The name of the repository. -/
  repo : Text
  /-- The number within the repository. -/
  number : Nat
  deriving DecidableEq

namespace PullRequest

/-- The short form `owner/repo#number`. -/
def display (pr : PullRequest) : Text :=
  pr.owner ++ '/' :: pr.repo ++ '#' :: Text.ofNat pr.number

/-- Reads a pull request from a record. -/
def ofTree? (tree : Json.Tree) : Option PullRequest := do
  let fields ← tree.fields? ["owner".toList, "repo".toList, "pull".toList]
  match fields with
  | [some owner, some repo, some number] =>
    return ⟨← owner.text?, ← repo.text?, ← number.natural?⟩
  | _ => none

end PullRequest
end PullPlan
