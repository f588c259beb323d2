import PullPlan.GitHub.Payload
import PullPlan.GitHub.Source

/-!
# The GitHub client

A client turns the questions of a `Source` into requests to the API and decodes the answers. The
network is a function from requests to responses, which fails where there is no response; following
redirections and giving up after the timeout are its work.
-/

namespace PullPlan
namespace GitHub

/-- How the API is reached. -/
structure Settings where
  /-- The root of the API. -/
  apiUrl : Text
  /-- How many seconds a request may take. -/
  timeoutSeconds : Nat
  /-- The name that the client gives itself. -/
  userAgent : Text
  deriving DecidableEq

/-- The settings for the public server. -/
def Settings.default : Settings :=
  ⟨"https://api.github.com".toList, 30, "grep-pr-tests/0.1.0".toList⟩

/-- A request for a resource. -/
structure Request where
  /-- The address of the resource. -/
  url : Text
  /-- The media type that is asked for. -/
  accept : Text
  /-- The proof of identity. -/
  authorization : Text
  /-- The name of the client. -/
  userAgent : Option Text
  deriving DecidableEq

/-- The answer to a request. -/
structure Response where
  /-- The status code. -/
  status : Nat
  /-- The content. -/
  body : Bytes

/-- What comes back for a request, if anything does. -/
abbrev Network := Request → Option Response

/-- A client that is ready to send requests. -/
structure Client where
  /-- The root of the API, without slashes at its end. -/
  apiRoot : Text
  /-- The token that proves who is asking. -/
  token : Text
  /-- The name that is sent along, if it can be sent. -/
  userAgent : Option Text

namespace Client

/-- The variables that may hold the token, in the order in which they are tried. -/
def tokenVariables : List Text := ["GITHUB_TOKEN".toList, "PERSONAL_GH_TOKEN".toList]

/-- The token: the first of its variables that is set and not empty. -/
def tokenFrom (variableOf : Text → Option Text) : Except Error Text :=
  match (tokenVariables.filterMap variableOf).find? fun token => !token.isEmpty with
  | some token => .ok token
  | none => .error .missingToken

/-- Whether a character can stand in the value of a header: all but the control characters, of
which the tab is allowed. -/
def isHeaderChar (c : Char) : Bool := c = '\t' || (0x20 ≤ c.toNat && c.toNat ≠ 0x7F)

/-- Makes a client. A token that cannot be sent is an error; a name that cannot be sent is not. -/
def new (settings : Settings) (token : Text) : Except Error Client :=
  if token.isEmpty then .error .missingToken
  else if !token.all isHeaderChar then .error .invalidToken
  else
    .ok
      { apiRoot := (settings.apiUrl.reverse.dropWhile (· = '/')).reverse
        token := token
        userAgent :=
          if settings.userAgent.all isHeaderChar then some settings.userAgent else none }

/-! ### Addresses -/

/-- The address of a repository. -/
def repoUrl (client : Client) (owner repo : Text) : Text :=
  client.apiRoot ++ "/repos/".toList ++ owner ++ '/' :: repo

/-- The address of a pull request. -/
def bodyUrl (client : Client) (pr : PullRequest) : Text :=
  client.repoUrl pr.owner pr.repo ++ "/pulls/".toList ++ Text.ofNat pr.number

/-- The address of the comments of a pull request. -/
def commentsUrl (client : Client) (pr : PullRequest) : Text :=
  client.repoUrl pr.owner pr.repo ++ "/issues/".toList ++ Text.ofNat pr.number
    ++ "/comments".toList

/-- The address of the open pull requests of a repository. -/
def openPullsUrl (client : Client) (owner repo : Text) : Text :=
  client.repoUrl owner repo ++ "/pulls?state=open&per_page=100".toList

/-! ### Requests -/

/-- The request for an address. -/
def request (client : Client) (url : Text) : Request :=
  { url := url
    accept := "application/vnd.github.v3+json".toList
    authorization := "Bearer ".toList ++ client.token
    userAgent := client.userAgent }

/-- Whether a status code means success. -/
def isSuccess (status : Nat) : Bool := 200 ≤ status && status < 300

/-- Fetches an address and decodes the JSON text that comes back. -/
def get {α : Type} (client : Client) (network : Network) (decode? : Json.Tree → Option α)
    (url : Text) : Except Error α :=
  match network (client.request url) with
  | none => .error .request
  | some response =>
    if !isSuccess response.status then .error (.status response.status url)
    else
      match (Json.Tree.ofBytes? response.body).bind decode? with
      | some answer => .ok answer
      | none => .error .request

/-- Checks that a repository is named. -/
def checkRepo (owner repo : Text) : Except Error Unit :=
  if owner.isEmpty then .error .missingOwner
  else if repo.isEmpty then .error .missingRepo
  else .ok ()

/-- Checks that a pull request is named. -/
def checkPullRequest (pr : PullRequest) : Except Error Unit := do
  checkRepo pr.owner pr.repo
  if pr.number = 0 then .error .missingPullNumber else .ok ()

/-- Fetches the body of a pull request. -/
def body (client : Client) (network : Network) (pr : PullRequest) : Except Error Text := do
  checkPullRequest pr
  let body ← client.get network Payload.details? (client.bodyUrl pr)
  return body.getD []

/-- Fetches the comments of a pull request. -/
def comments (client : Client) (network : Network) (pr : PullRequest) :
    Except Error (List Text) := do
  checkPullRequest pr
  client.get network Payload.comments? (client.commentsUrl pr)

/-- The number of the only pull request whose head is a commit. -/
def pick (commit : Text) (pulls : List OpenPull) : Except Error Nat :=
  match pulls.filter fun pull => pull.head = commit with
  | [] => .error (.pullRequestNotFound commit)
  | [pull] => .ok pull.number
  | several => .error (.ambiguousPullRequest several.length commit)

/-- Looks for the pull request whose head is a commit. -/
def numberOf (client : Client) (network : Network) (owner repo commit : Text) :
    Except Error Nat := do
  checkRepo owner repo
  if commit.isEmpty then .error .missingCommit
  else
    let pulls ← client.get network Payload.openPulls? (client.openPullsUrl owner repo)
    pick commit pulls

/-- The client as a source. -/
def source (client : Client) (network : Network) : Source :=
  ⟨client.body network, client.comments network, client.numberOf network⟩

end Client
end GitHub
end PullPlan
