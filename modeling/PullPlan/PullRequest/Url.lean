import PullPlan.PullRequest.Basic
import PullPlan.Text.Blank

/-!
# Pull request URLs

The web address of a pull request is `https://github.com/OWNER/REPO/pull/NUMBER`, with anything on
the same line after a slash, a question mark or a number sign. `PullRequest.ofUrl` takes it apart.
-/

namespace PullPlan

/-- Why a text is not the URL of a pull request. -/
inductive UrlError where
  /-- The URL has another start. -/
  | invalidHost (url : Text)
  /-- The path has another form. -/
  | missingPullSegment (url : Text)
  /-- The digits of the number are not ASCII digits, or the number has more than 64 bits. -/
  | invalidNumber (digits : Text)
  deriving DecidableEq

/-- The wording of an error. -/
def UrlError.message : UrlError → Text
  | .invalidHost url => "Pull request URL must start with https://github.com/: ".toList ++ url
  | .missingPullSegment url =>
    "Pull request URL has no /<owner>/<repo>/pull/<number> path: ".toList ++ url
  | .invalidNumber digits => "Pull request number is out of range: ".toList ++ digits

namespace PullRequest

/-- The start of all web addresses. -/
def webRoot : Text := "https://github.com/".toList

/-- Whether a character can stand in the name of an owner or a repository. -/
def isNameChar (c : Char) : Bool := c ≠ '/' && !isBlank c

/-- A name at the front of a text, and what follows it. -/
def name? (t : Text) : Option (Text × Text) :=
  let name := t.takeWhile isNameChar
  if name.isEmpty then none else some (name, t.dropWhile isNameChar)

/-- Whether a text may follow the number. -/
def isTrailer : Text → Bool
  | [] => true
  | c :: rest => (c = '/' || c = '?' || c = '#') && !rest.contains '\n'

/-- The owner, the repository and the digits of the number in the path of a web address. -/
def pathParts? (path : Text) : Option (Text × Text × Text) := do
  let (owner, rest) ← name? path
  let rest ← Text.after? ['/'] rest
  let (repo, rest) ← name? rest
  let rest ← Text.after? "/pull/".toList rest
  let digits := rest.takeWhile isDecimalDigit
  if digits.isEmpty || !isTrailer (rest.dropWhile isDecimalDigit) then none
  else some (owner, repo, digits)

/-- The pull request with the given web address; blanks around the address are ignored. -/
def ofUrl (url : Text) : Except UrlError PullRequest :=
  let url := Text.trim url
  match Text.after? webRoot url with
  | none => .error (.invalidHost url)
  | some path =>
    match pathParts? path with
    | none => .error (.missingPullSegment url)
    | some (owner, repo, digits) =>
      match (Text.natural? digits).filter (· < wordBound) with
      | none => .error (.invalidNumber digits)
      | some number => .ok ⟨owner, repo, number⟩

end PullRequest
end PullPlan
