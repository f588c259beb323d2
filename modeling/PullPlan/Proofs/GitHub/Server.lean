import PullPlan.GitHub.Client
import PullPlan.Proofs.Json.Decoding
import PullPlan.Proofs.Json.Layout
import PullPlan.Proofs.Text.Utf8

/-!
# A server that answers in pages

The client relies on a server that keeps a pull request with its body and its comments. A request
for the comments is answered with one page of them: thirty, unless `per_page` says otherwise, of the
first page, unless `page` says otherwise. `Serves` states this of a network. The addresses in it are
those that the server documents; they are written out here and not taken from the client.

`server` is such a network (`serves_server`).
-/

namespace PullPlan
namespace GitHub

/-! ### Pages -/

/-- A page of a list. -/
structure Page where
  /-- How many items have room on a page. -/
  size : Nat
  /-- The number of the page, from one. -/
  number : Nat
  deriving DecidableEq

namespace Page

/-- The page that is answered where none is asked for. -/
def first : Page := ⟨30, 1⟩

/-- The most items that a page can be asked to hold. -/
def maxSize : Nat := 100

/-- A page asked for so far, with a further parameter of the query. -/
def readParameter? (page : Page) (parameter : Text) : Option Page :=
  match Text.after? "per_page=".toList parameter with
  | some digits => do
    let size ← (Text.natural? digits).filter (0 < ·)
    return { page with size := min size maxSize }
  | none => do
    let digits ← Text.after? "page=".toList parameter
    let number ← (Text.natural? digits).filter (0 < ·)
    return { page with number := number }

/-- The page that a query asks for, if it is about pages alone. -/
def ofQuery? : Text → Option Page
  | [] => some first
  | '?' :: parameters => (parameters.splitOn '&').foldlM readParameter? first
  | _ => none

/-- The items on a page of a list. -/
def items {α : Type} (page : Page) (all : List α) : List α :=
  (all.drop ((page.number - 1) * page.size)).take page.size

example : (ofQuery? "?per_page=40&page=2".toList).map (·.items (List.range 60))
    = some ((List.range 20).map (· + 40)) := by decide

end Page

/-! ### What the server answers -/

/-- The address at which a server with the given root has a pull request. -/
def pullAddress (root : Text) (pr : PullRequest) : Text :=
  root ++ ("/repos/".toList ++ pr.owner ++ "/".toList ++ pr.repo ++ "/pulls/".toList
    ++ Text.ofNat pr.number)

/-- The address at which it has the comments of a pull request. -/
def commentsAddress (root : Text) (pr : PullRequest) : Text :=
  root ++ ("/repos/".toList ++ pr.owner ++ "/".toList ++ pr.repo ++ "/issues/".toList
    ++ Text.ofNat pr.number ++ "/comments".toList)

/-- A request for an address that shows a token. -/
structure IsFor (url token : Text) (request : Request) : Prop where
  url : request.url = url
  authorization : request.authorization = "Bearer ".toList ++ token

/-- A response is a success, and its content is JSON of some kind. -/
def Delivers (holds : Json.Tree → Prop) (response : Option Response) : Prop :=
  ∃ content tree, response = some ⟨200, content⟩ ∧ Json.Tree.ofBytes? content = some tree
    ∧ holds tree

/-- A record with the given text as its body: a string, or `null` where the text is empty. The
record may have other fields. -/
def IsRecord (text : Text) (tree : Json.Tree) : Prop :=
  ∃ members value, tree.members? = some members ∧ Dict.valuesAt "body".toList members = [value]
    ∧ (value.text? = some text ∨ value = .null ∧ text = [])

/-- A list of such records. -/
def AreRecords (texts : List Text) (tree : Json.Tree) : Prop :=
  ∃ items, tree = .array items ∧ List.Forall₂ IsRecord texts items

/-- A network leads to a server with the given root that keeps a pull request with its body and its
comments, for those who show a token. -/
structure Serves (root token : Text) (pr : PullRequest) (body : Text) (comments : List Text)
    (network : Network) : Prop where
  pull : ∀ request, IsFor (pullAddress root pr) token request →
    Delivers (IsRecord body) (network request)
  comments : ∀ query page request, Page.ofQuery? query = some page →
    IsFor (commentsAddress root pr ++ query) token request →
    Delivers (AreRecords (page.items comments)) (network request)

/-! ### Such a server -/

/-- A response with JSON content. -/
def reply (status : Nat) (content : Json) : Option Response :=
  some ⟨status, Utf8.encode content.compact⟩

/-- The record of a text. -/
def record (text : Text) : Json :=
  .object [("body".toList, Json.textOrNull (if text.isEmpty then none else some text))]

/-- The content of a refusal. -/
def refusal (message : Text) : Json := .object [("message".toList, .string message)]

/-- A server that keeps one pull request. -/
def server (root token : Text) (pr : PullRequest) (body : Text) (comments : List Text) : Network :=
  fun request =>
    if request.authorization ≠ "Bearer ".toList ++ token then
      reply 401 (refusal "Bad credentials".toList)
    else if request.url = pullAddress root pr then reply 200 (record body)
    else
      match (Text.after? (commentsAddress root pr) request.url).bind Page.ofQuery? with
      | some page => reply 200 (.array ((page.items comments).map record))
      | none => reply 404 (refusal "Not Found".toList)

theorem delivers_reply {holds : Json.Tree → Prop} {content : Json} (h : holds content.tree) :
    Delivers holds (reply 200 content) := by
  have htree : Json.Tree.ofBytes? (Utf8.encode content.compact) = some content.tree := by
    rw [Json.Tree.ofBytes?, Utf8.units_encode, ← Json.Tree.ofText?, Json.treeOfText?_compact]
  exact ⟨_, content.tree, rfl, htree, h⟩

theorem isRecord_record (text : Text) : IsRecord text (record text).tree := by
  refine ⟨_, _, Json.members?_tree _, rfl, ?_⟩
  cases text with
  | nil => exact Or.inr ⟨rfl, rfl⟩
  | cons c text => exact Or.inl (Json.text?_map_char (c :: text))

theorem areRecords_records (texts : List Text) :
    AreRecords texts (Json.array (texts.map record)).tree :=
  ⟨_, rfl, Json.forall₂_itemTrees fun text _ => isRecord_record text⟩

/-- The comments are not at the address of the pull request. -/
theorem commentsAddress_ne_pullAddress (root : Text) (pr : PullRequest) (query : Text) :
    commentsAddress root pr ++ query ≠ pullAddress root pr := by
  intro h
  simp [commentsAddress, pullAddress] at h

theorem serves_server (root token : Text) (pr : PullRequest) (body : Text)
    (comments : List Text) :
    Serves root token pr body comments (server root token pr body comments) where
  pull request h := by
    have hreply : server root token pr body comments request = reply 200 (record body) := by
      simp only [server, h.authorization, h.url, ne_eq, not_true_eq_false, ↓reduceIte]
    rw [hreply]
    exact delivers_reply (isRecord_record body)
  comments query page request hpage h := by
    have hother : request.url ≠ pullAddress root pr := by
      rw [h.url]
      exact commentsAddress_ne_pullAddress root pr query
    have hquery : Text.after? (commentsAddress root pr) request.url = some query :=
      Text.after?_eq_some_iff.2 h.url
    have hreply : server root token pr body comments request
        = reply 200 (.array ((page.items comments).map record)) := by
      simp only [server, h.authorization, hother, hquery, hpage, Option.bind_some, ne_eq,
        not_true_eq_false, ↓reduceIte]
    rw [hreply]
    exact delivers_reply (areRecords_records _)

end GitHub
end PullPlan
