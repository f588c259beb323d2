import PullPlan.GitHub.Error
import PullPlan.PullRequest.Basic

/-!
# Sources of pull request text

A source answers three questions about pull requests. The network is one source; a fixed set of
answers is another.
-/

namespace PullPlan
namespace GitHub

/-- Where the text of pull requests comes from. -/
structure Source where
  /-- The body of a pull request; empty when it has none. -/
  body : PullRequest → Except Error Text
  /-- The bodies of the comments in chronological order. -/
  comments : PullRequest → Except Error (List Text)
  /-- The number of the only open pull request of a repository whose head is a commit, by owner,
  repository and commit. -/
  numberOf : Text → Text → Text → Except Error Nat

/-- Body and comments of a pull request. If both fail, the error is that of the body. -/
def Source.text (source : Source) (pr : PullRequest) : Except Error (Text × List Text) := do
  let body ← source.body pr
  let comments ← source.comments pr
  return (body, comments)

/-- How the number of a pull request is found. -/
inductive NumberQuery where
  /-- It is known. -/
  | known (number : Nat)
  /-- It is looked up by a commit. -/
  | byCommit (commit : Text)
  deriving DecidableEq

namespace NumberQuery

/-- A known number comes before a commit; an empty commit is none. -/
def of (number : Option Nat) (commit : Option Text) : Except Error NumberQuery :=
  match number with
  | some n => .ok (.known n)
  | none =>
    match commit.filter fun c => !c.isEmpty with
    | some c => .ok (.byCommit c)
    | none => .error .missingCommit

/-- The commits that a query looks up. -/
def lookups : NumberQuery → List Text
  | .known _ => []
  | .byCommit commit => [commit]

/-- The number that a query finds. -/
def run (query : NumberQuery) (source : Source) (owner repo : Text) : Except Error Nat :=
  match query with
  | .known n => .ok n
  | .byCommit commit => source.numberOf owner repo commit

end NumberQuery

/-- The number of a pull request, known or looked up by a commit. -/
def Source.number (source : Source) (owner repo : Text) (number : Option Nat)
    (commit : Option Text) : Except Error Nat := do
  let query ← NumberQuery.of number commit
  query.run source owner repo

end GitHub
end PullPlan
