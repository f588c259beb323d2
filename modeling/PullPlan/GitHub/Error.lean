import PullPlan.Text.Basic

/-!
# Errors of GitHub requests
-/

namespace PullPlan
namespace GitHub

/-- Why a pull request could not be found or fetched. -/
inductive Error where
  /-- No owner is given. -/
  | missingOwner
  /-- No repository is given. -/
  | missingRepo
  /-- The number of the pull request is zero. -/
  | missingPullNumber
  /-- There is neither a number nor a commit. -/
  | missingCommit
  /-- No token is set. -/
  | missingToken
  /-- The token cannot be sent as a header. -/
  | invalidToken
  /-- No open pull request has the commit as its head. -/
  | pullRequestNotFound (commit : Text)
  /-- Several open pull requests have the commit as their head. -/
  | ambiguousPullRequest (count : Nat) (commit : Text)
  /-- The server answered with a status other than success. -/
  | status (code : Nat) (url : Text)
  /-- The request failed, or the answer could not be decoded. -/
  | request
  deriving DecidableEq

/-- The wording of an error. -/
def Error.message : Error → Text
  | .missingOwner => "Repository owner is required".toList
  | .missingRepo => "Repository name is required".toList
  | .missingPullNumber => "Pull request number is required".toList
  | .missingCommit => "Cannot find the pull request number without commit SHA".toList
  | .missingToken =>
    "Cannot find environment variable GITHUB_TOKEN or PERSONAL_GH_TOKEN".toList
  | .invalidToken =>
    "GitHub token contains characters not allowed in a header, ".toList
      ++ "check for stray whitespace or newlines".toList
  | .pullRequestNotFound commit =>
    "Could not find pull request with head SHA ".toList ++ commit
  | .ambiguousPullRequest count commit =>
    "Found ".toList ++ Text.ofNat count ++ " pull requests with head SHA ".toList ++ commit
  | .status code url =>
    "GitHub returned ".toList ++ Text.ofNat code ++ " for ".toList ++ url
  | .request => "GitHub request failed".toList

end GitHub
end PullPlan
