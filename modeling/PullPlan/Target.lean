import PullPlan.GitHub.Source
import PullPlan.PullRequest.Url

/-!
# Targets

A target is what the user says about the pull request that is meant. `Target.query` turns it into a
query, without asking anyone; `Target.Query.run` asks the source, at most once.
-/

namespace PullPlan

/-- What is said about the pull request that is meant. -/
structure Target where
  /-- The owner of the repository. -/
  owner : Option Text
  /-- The name of the repository. -/
  repo : Option Text
  /-- The number of the pull request. -/
  number : Option Nat
  /-- The commit at the head of the pull request. -/
  commit : Option Text
  /-- The web address of the pull request. -/
  url : Option Text
  deriving DecidableEq

namespace Target

/-- The target that says nothing. -/
def empty : Target := ⟨none, none, none, none, none⟩

/-- Why a target means no pull request. -/
inductive Error where
  /-- Its web address is none of a pull request. -/
  | url (error : UrlError)
  /-- A part is missing or the source has no answer. -/
  | github (error : GitHub.Error)
  deriving DecidableEq

/-- How the pull request of a target is found. -/
inductive Query where
  /-- It is known by its web address. -/
  | known (pr : PullRequest)
  /-- Its repository is known, and its number is found by a query. -/
  | inRepo (owner repo : Text) (number : GitHub.NumberQuery)
  deriving DecidableEq

/-- A part of a target: as said, or else as configured. An empty text is no part. -/
def part (said configured : Option Text) : Option Text :=
  (said.or configured).filter fun t => !t.isEmpty

/-- The commit that a target means: the one that it names or, where it names neither a number nor
a commit, the one that is checked out. -/
def commitOr (target : Target) (head : Option Text) : Option Text :=
  match target.number, target.commit with
  | none, none => head
  | _, commit => commit

/-- The query of a target, by the configured owner and repository and the commit that is checked
out. -/
def query (target : Target) (owner repo head : Option Text) : Except Error Query :=
  match target.url with
  | some url =>
    match PullRequest.ofUrl url with
    | .ok pr => .ok (.known pr)
    | .error e => .error (.url e)
  | none =>
    match part target.owner owner with
    | none => .error (.github .missingOwner)
    | some owner =>
      match part target.repo repo with
      | none => .error (.github .missingRepo)
      | some repo =>
        match GitHub.NumberQuery.of target.number (target.commitOr head) with
        | .error e => .error (.github e)
        | .ok number => .ok (.inRepo owner repo number)

namespace Query

/-- What a query looks up: owner, repository and commit. -/
def lookups : Query → List (Text × Text × Text)
  | .known _ => []
  | .inRepo owner repo number => number.lookups.map fun commit => (owner, repo, commit)

/-- The pull request that a query finds. -/
def run (query : Query) (source : GitHub.Source) : Except Error PullRequest :=
  match query with
  | .known pr => .ok pr
  | .inRepo owner repo number =>
    match number.run source owner repo with
    | .ok n => .ok ⟨owner, repo, n⟩
    | .error e => .error (.github e)

end Query

/-- The pull request that a target means. -/
def resolve (target : Target) (owner repo head : Option Text) (source : GitHub.Source) :
    Except Error PullRequest := do
  let query ← target.query owner repo head
  query.run source

end Target
end PullPlan
