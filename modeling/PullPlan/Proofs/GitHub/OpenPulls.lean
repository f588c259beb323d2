import PullPlan.Proofs.GitHub.Conversation

/-!
# The pull request of a commit

A commit stands for a pull request if it is the head of just one open pull request, and that is a
statement about all open pull requests of the repository: `Decides` says what an answer has to be.
The client asks for one page of a hundred of them and decides by these (`Client.numberOf_of_lists`).

`Client.numberOf_decides_iff` says when that is the right answer for the repository: when no open
pull request behind the first hundred has the commit as its head. Otherwise the only one is not
found, or one of several is taken for the only one (`Client.numberOf_overlooks`).
-/

namespace PullPlan
namespace GitHub

/-! ### The answer for a repository -/

/-- An answer to the question which open pull request has a commit as its head: its number if it is
the only one, and otherwise that there is none, or how many there are. -/
structure Decides (commit : Text) (pulls : List OpenPull) (answer : Except Error Nat) : Prop where
  found : ∀ number, answer = .ok number ↔ ∃ front pull behind, pulls = front ++ pull :: behind ∧
    pull.head = commit ∧ pull.number = number ∧ ∀ other ∈ front ++ behind, other.head ≠ commit
  missing : answer = .error (.pullRequestNotFound commit) ↔ ∀ pull ∈ pulls, pull.head ≠ commit
  several : ∀ count, answer = .error (.ambiguousPullRequest count commit) ↔
    2 ≤ count ∧ pulls.countP (fun pull => pull.head = commit) = count

/-- One item passes a filter exactly if no other one does. -/
theorem filter_eq_singleton_iff {α : Type} {p : α → Bool} {l : List α} {a : α} :
    l.filter p = [a] ↔
      ∃ front behind, l = front ++ a :: behind ∧ p a = true
        ∧ ∀ b ∈ front ++ behind, p b = false := by
  rw [List.filter_eq_cons_iff]
  constructor
  · rintro ⟨front, behind, rfl, hfront, ha, hbehind⟩
    rw [List.filter_eq_nil_iff] at hbehind
    refine ⟨front, behind, rfl, ha, ?_⟩
    intro b hb
    rcases List.mem_append.1 hb with hb | hb
    · simpa using hfront b hb
    · simpa using hbehind b hb
  · rintro ⟨front, behind, rfl, ha, hothers⟩
    refine ⟨front, behind, rfl, ?_, ha, ?_⟩
    · intro b hb
      simpa using hothers b (List.mem_append_left _ hb)
    · rw [List.filter_eq_nil_iff]
      intro b hb
      simpa using hothers b (List.mem_append_right _ hb)

/-! ### Lists of open pull requests -/

/-- The page of the open pull requests that a query asks for. Their state may be given, and is
`open` where none is given. -/
def Page.ofOpenQuery? : Text → Option Page
  | [] => some first
  | '?' :: parameters =>
    ((parameters.splitOn '&').filter (· ≠ "state=open".toList)).foldlM readParameter? first
  | _ => none

/-- The address at which a server with the given root has the open pull requests of a repository. -/
def pullsAddress (root owner repo : Text) : Text :=
  root ++ ("/repos/".toList ++ owner ++ "/".toList ++ repo ++ "/pulls".toList)

/-- The record of an open pull request. It may have other fields. -/
def IsPull (pull : OpenPull) (tree : Json.Tree) : Prop :=
  ∃ members number head headMembers sha, tree.members? = some members
    ∧ Dict.valuesAt "number".toList members = [number] ∧ number.natural? = some pull.number
    ∧ Dict.valuesAt "head".toList members = [head] ∧ head.members? = some headMembers
    ∧ Dict.valuesAt "sha".toList headMembers = [sha] ∧ sha.text? = some pull.head

/-- A list of such records. -/
def ArePulls (pulls : List OpenPull) (tree : Json.Tree) : Prop :=
  ∃ items, tree = .array items ∧ List.Forall₂ IsPull pulls items

/-- A network leads to a server with the given root that has the open pull requests of a repository,
in pages, for those who show a token. -/
def Lists (root token owner repo : Text) (pulls : List OpenPull) (network : Network) : Prop :=
  ∀ query page request, Page.ofOpenQuery? query = some page →
    IsFor (pullsAddress root owner repo ++ query) token request →
    Delivers (ArePulls (page.items pulls)) (network request)

theorem openPull?_of_isPull {pull : OpenPull} {tree : Json.Tree} (h : IsPull pull tree) :
    Payload.openPull? tree = some pull := by
  obtain ⟨members, number, head, headMembers, sha, hmembers, hnumber, hnatural, hhead, hheadMembers,
    hsha, htext⟩ := h
  have hshaField : head.fields? ["sha".toList] = some [some sha] :=
    Json.Tree.fields?_of_valuesAt hheadMembers (.cons hsha .nil)
  have hfields : tree.fields? ["number".toList, "head".toList] = some [some number, some head] :=
    Json.Tree.fields?_of_valuesAt hmembers (.cons hnumber (.cons hhead .nil))
  have hcommit : Payload.head? head = some pull.head := by
    rw [Payload.head?, hshaField]
    exact htext
  rw [Payload.openPull?, hfields]
  show (do return (⟨← number.natural?, ← Payload.head? head⟩ : OpenPull)) = some pull
  rw [hnatural, hcommit]
  rfl

theorem openPulls?_of_arePulls {pulls : List OpenPull} {tree : Json.Tree}
    (h : ArePulls pulls tree) :
    Payload.openPulls? tree = some pulls := by
  obtain ⟨items, rfl, h⟩ := h
  exact Json.Tree.list?_of_forall₂ (h.imp fun _ _ hpull => openPull?_of_isPull hpull)

/-! ### A server with open pull requests -/

/-- The record of an open pull request. -/
def pullRecord (pull : OpenPull) : Json :=
  .object [("number".toList, .integer pull.number),
    ("head".toList, .object [("sha".toList, .string pull.head)])]

/-- A server that keeps the open pull requests of one repository. -/
def pullsServer (root token owner repo : Text) (pulls : List OpenPull) : Network :=
  fun request =>
    if request.authorization ≠ "Bearer ".toList ++ token then
      reply 401 (refusal "Bad credentials".toList)
    else
      match (Text.after? (pullsAddress root owner repo) request.url).bind Page.ofOpenQuery? with
      | some page => reply 200 (.array ((page.items pulls).map pullRecord))
      | none => reply 404 (refusal "Not Found".toList)

theorem isPull_pullRecord {pull : OpenPull} (h : pull.number < wordBound) :
    IsPull pull (pullRecord pull).tree :=
  ⟨_, _, _, _, _, Json.members?_tree _, rfl, Json.natural?_tree h, rfl, Json.members?_tree _, rfl,
    Json.text?_map_char pull.head⟩

theorem arePulls_pullRecords {pulls : List OpenPull} (h : ∀ pull ∈ pulls, pull.number < wordBound) :
    ArePulls pulls (Json.array (pulls.map pullRecord)).tree :=
  ⟨_, rfl, Json.forall₂_itemTrees fun pull hpull => isPull_pullRecord (h pull hpull)⟩

theorem lists_pullsServer (root token owner repo : Text) {pulls : List OpenPull}
    (h : ∀ pull ∈ pulls, pull.number < wordBound) :
    Lists root token owner repo pulls (pullsServer root token owner repo pulls) := by
  intro query page request hpage hfor
  have hquery : Text.after? (pullsAddress root owner repo) request.url = some query :=
    Text.after?_eq_some_iff.2 hfor.url
  have hreply : pullsServer root token owner repo pulls request
      = reply 200 (.array ((page.items pulls).map pullRecord)) := by
    simp only [pullsServer, hfor.authorization, hquery, hpage, Option.bind_some, ne_eq,
      not_true_eq_false, ↓reduceIte]
  rw [hreply]
  apply delivers_reply
  apply arePulls_pullRecords
  intro pull hpull
  exact h pull (List.mem_of_mem_drop (List.mem_of_mem_take hpull))

/-! ### What the client answers -/

namespace Client

theorem decides_pick (commit : Text) (pulls : List OpenPull) :
    Decides commit pulls (pick commit pulls) := by
  have hfound : ∀ number, (∃ front pull behind, pulls = front ++ pull :: behind ∧
      pull.head = commit ∧ pull.number = number ∧ ∀ other ∈ front ++ behind, other.head ≠ commit) ↔
        ∃ pull, (pulls.filter fun pull => pull.head = commit) = [pull] ∧ pull.number = number := by
    intro number
    simp only [filter_eq_singleton_iff, decide_eq_true_eq, decide_eq_false_iff_not]
    constructor
    · rintro ⟨front, pull, behind, hpulls, hhead, hnumber, hothers⟩
      exact ⟨pull, ⟨front, behind, hpulls, hhead, hothers⟩, hnumber⟩
    · rintro ⟨pull, ⟨front, behind, hpulls, hhead, hothers⟩, hnumber⟩
      exact ⟨front, pull, behind, hpulls, hhead, hnumber, hothers⟩
  have hmissing : (∀ pull ∈ pulls, pull.head ≠ commit) ↔
      (pulls.filter fun pull => pull.head = commit) = [] := by
    simp [List.filter_eq_nil_iff]
  constructor
  · intro number
    rw [hfound, pick]
    cases hmatching : pulls.filter fun pull => pull.head = commit with
    | nil => simp
    | cons pull more => cases more <;> simp
  · rw [hmissing, pick]
    cases hmatching : pulls.filter fun pull => pull.head = commit with
    | nil => simp
    | cons pull more => cases more <;> simp
  · intro count
    rw [List.countP_eq_length_filter, pick]
    cases hmatching : pulls.filter fun pull => pull.head = commit with
    | nil => simp; omega
    | cons pull more =>
      cases more with
      | nil => simp; omega
      | cons second more => simp; omega

/-- Only one answer is right. -/
theorem decides_iff {commit : Text} {pulls : List OpenPull} {answer : Except Error Nat} :
    Decides commit pulls answer ↔ answer = pick commit pulls := by
  have hpick := decides_pick commit pulls
  constructor
  · intro h
    cases hmatching : pulls.filter fun pull => pull.head = commit with
    | nil =>
      have hanswer : pick commit pulls = .error (.pullRequestNotFound commit) := by
        rw [pick, hmatching]
      rw [hanswer, h.missing, ← hpick.missing, hanswer]
    | cons pull more =>
      cases more with
      | nil =>
        have hanswer : pick commit pulls = .ok pull.number := by
          rw [pick, hmatching]
        rw [hanswer, h.found, ← hpick.found, hanswer]
      | cons second more =>
        have hanswer : pick commit pulls
            = .error (.ambiguousPullRequest (pull :: second :: more).length commit) := by
          rw [pick, hmatching]
        rw [hanswer, h.several, ← hpick.several, hanswer]
  · rintro rfl
    exact hpick

/-- A pull request that is not looked at changes the answer. -/
theorem pick_append_eq_iff {commit : Text} {seen unseen : List OpenPull} :
    pick commit seen = pick commit (seen ++ unseen) ↔ ∀ pull ∈ unseen, pull.head ≠ commit := by
  have hnone : (∀ pull ∈ unseen, pull.head ≠ commit) ↔
      (unseen.filter fun pull => pull.head = commit) = [] := by
    simp [List.filter_eq_nil_iff]
  rw [hnone, pick, pick, List.filter_append]
  -- A late match turns none into one, and one or more into several more.
  generalize (unseen.filter fun pull => pull.head = commit) = late
  generalize (seen.filter fun pull => pull.head = commit) = early
  match early, late with
  | [], [] => simp
  | [], [_] => simp
  | [], _ :: _ :: _ => simp
  | [_], [] => simp
  | [_], _ :: _ => simp
  | _ :: _ :: _, [] => simp
  | _ :: _ :: _, _ :: _ => simp

variable {client : Client} {network : Network} {owner repo commit : Text} {pulls : List OpenPull}

theorem openPullsUrl_eq_pullsAddress (client : Client) (owner repo : Text) :
    client.openPullsUrl owner repo
      = pullsAddress client.apiRoot owner repo ++ "?state=open&per_page=100".toList := by
  simp [openPullsUrl, repoUrl, pullsAddress]

section
variable (howner : owner ≠ []) (hrepo : repo ≠ []) (hcommit : commit ≠ [])
  (h : Lists client.apiRoot client.token owner repo pulls network)
include howner hrepo hcommit h

/-- The first hundred open pull requests decide. -/
theorem numberOf_of_lists :
    client.numberOf network owner repo commit = pick commit (pulls.take 100) := by
  have hrepoNamed : checkRepo owner repo = .ok () := by
    simp [checkRepo, howner, hrepo]
  have hquery : Page.ofOpenQuery? "?state=open&per_page=100".toList = some ⟨100, 1⟩ := by decide
  have hpage : Delivers (ArePulls (pulls.take 100))
      (network (client.request (client.openPullsUrl owner repo))) := by
    rw [openPullsUrl_eq_pullsAddress]
    exact h _ _ _ hquery (isFor_request client _)
  obtain ⟨_, hget, rfl⟩ := get_of_delivers hpage
    fun _ hpulls => ⟨_, openPulls?_of_arePulls hpulls, rfl⟩
  have hcommitGiven : commit.isEmpty = false := by simpa using hcommit
  simp only [numberOf, hrepoNamed, hcommitGiven, hget, Bool.false_eq_true, ↓reduceIte]
  rfl

/-- **The pull request of a commit.** The answer of the client is the right one for the first
hundred open pull requests of the repository. It is the right one for all of them exactly if no
later one has the commit as its head. -/
theorem numberOf_decides_iff :
    Decides commit (pulls.take 100) (client.numberOf network owner repo commit)
      ∧ (Decides commit pulls (client.numberOf network owner repo commit) ↔
          ∀ pull ∈ pulls.drop 100, pull.head ≠ commit) := by
  have hanswer := numberOf_of_lists howner hrepo hcommit h
  constructor
  · rw [hanswer]
    exact decides_pick commit (pulls.take 100)
  · rw [hanswer, decides_iff]
    have hall : pulls.take 100 ++ pulls.drop 100 = pulls := List.take_append_drop 100 pulls
    nth_rewrite 2 [← hall]
    exact pick_append_eq_iff

end

/-! ### Repositories of one page and of two -/

/-- Open pull requests with the given heads, numbered from one. -/
def numbered (heads : List Text) : List OpenPull :=
  (heads.zipIdx 1).map fun (head, number) => ⟨number, head⟩

/-- Two pull requests of one commit, with others between them. -/
def twice (between : Nat) : List OpenPull :=
  numbered ("abc".toList :: List.replicate between "def".toList ++ ["abc".toList])

/-- The server for the client with the default settings. -/
def openServer (pulls : List OpenPull) : Network :=
  pullsServer publicClient.apiRoot publicClient.token "o".toList "r".toList pulls

theorem numberOf_decides_iff_twice :
    publicClient.numberOf (openServer (twice 98)) "o".toList "r".toList "abc".toList
        = .error (.ambiguousPullRequest 2 "abc".toList)
      ∧ Decides "abc".toList (twice 98)
          (publicClient.numberOf (openServer (twice 98)) "o".toList "r".toList "abc".toList) := by
  have hlists : Lists publicClient.apiRoot publicClient.token "o".toList "r".toList (twice 98)
      (openServer (twice 98)) := lists_pullsServer _ _ _ _ (by decide +kernel)
  have hcommit : "abc".toList ≠ [] := by decide
  obtain ⟨hpage, hall⟩ := numberOf_decides_iff (by decide) (by decide) hcommit hlists
  refine ⟨?_, hall.2 (by decide +kernel)⟩
  rw [decides_iff.1 hpage]
  decide +kernel

/-- The second pull request of the commit is the first one behind the page. -/
theorem numberOf_overlooks :
    Lists publicClient.apiRoot publicClient.token "o".toList "r".toList (twice 99)
        (openServer (twice 99))
      ∧ publicClient.numberOf (openServer (twice 99)) "o".toList "r".toList "abc".toList = .ok 1
      ∧ Decides "abc".toList (twice 99) (.error (.ambiguousPullRequest 2 "abc".toList))
      ∧ ¬ Decides "abc".toList (twice 99)
          (publicClient.numberOf (openServer (twice 99)) "o".toList "r".toList "abc".toList) := by
  have hlists : Lists publicClient.apiRoot publicClient.token "o".toList "r".toList (twice 99)
      (openServer (twice 99)) := lists_pullsServer _ _ _ _ (by decide +kernel)
  have hanswer : publicClient.numberOf (openServer (twice 99)) "o".toList "r".toList "abc".toList
      = .ok 1 := by
    rw [numberOf_of_lists (by decide) (by decide) (by decide) hlists]
    decide +kernel
  have hright : pick "abc".toList (twice 99) = .error (.ambiguousPullRequest 2 "abc".toList) := by
    decide +kernel
  refine ⟨hlists, hanswer, decides_iff.2 hright.symm, ?_⟩
  rw [hanswer, decides_iff, hright]
  exact nofun

end Client
end GitHub
end PullPlan
