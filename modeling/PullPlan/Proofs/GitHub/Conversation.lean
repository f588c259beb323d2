import PullPlan.Proofs.GitHub.Server
import PullPlan.Proofs.Plan.LastWrite

/-!
# What is fetched of a conversation

From a server that keeps a pull request with a body and comments, the client fetches the body and
the first page of the comments (`Client.source_text_of_serves`). It asks for no page, so that is
thirty comments at most, and it asks for no further page.

`Client.source_text_eq_iff` says when that is the whole conversation, and when the base URL of the
plan is still the one that the whole conversation gives. With more comments the latest are missing,
which are the ones that count (`Client.source_text_loses_comment`).
-/

namespace PullPlan

/-- The last base URL in some texts, which are read in order. -/
def Plan.lastUrl? (texts : List Text) : Option Text :=
  ((texts.flatMap Text.lines).filterMap Directive.baseUrl?).getLast?

theorem Plan.lastUrl?_append (front back : List Text) :
    lastUrl? (front ++ back) = (lastUrl? back).or (lastUrl? front) := by
  unfold lastUrl?
  rw [List.flatMap_append, List.filterMap_append, List.getLast?_append]

namespace GitHub

/-! ### Records are decoded -/

theorem details?_of_isRecord {text : Text} {tree : Json.Tree} (h : IsRecord text tree) :
    ∃ body, Payload.details? tree = some body ∧ body.getD [] = text := by
  obtain ⟨members, value, hmembers, hvalue, htext⟩ := h
  have hfields : tree.fields? ["body".toList] = some [some value] :=
    Json.Tree.fields?_of_valuesAt hmembers (.cons hvalue .nil)
  have hdetails : Payload.details? tree = value.nullable? Json.Tree.text? := by
    rw [Payload.details?, hfields]
    rfl
  rw [hdetails]
  rcases htext with htext | ⟨rfl, rfl⟩
  · cases value with
    | string pieces =>
      exact ⟨some text, by simp [Json.Tree.nullable?, htext], rfl⟩
    | _ => simp [Json.Tree.text?] at htext
  · exact ⟨none, rfl, rfl⟩

theorem comments?_of_areRecords {texts : List Text} {tree : Json.Tree}
    (h : AreRecords texts tree) : Payload.comments? tree = some texts := by
  obtain ⟨items, rfl, h⟩ := h
  apply Json.Tree.list?_of_forall₂
  refine h.imp fun text comment hrecord => ?_
  obtain ⟨body, hbody, rfl⟩ := details?_of_isRecord hrecord
  rw [hbody]
  rfl

namespace Client

variable {client : Client} {network : Network} {pr : PullRequest}

/-! ### The two requests -/

theorem bodyUrl_eq_pullAddress (client : Client) (pr : PullRequest) :
    client.bodyUrl pr = pullAddress client.apiRoot pr := by
  simp [bodyUrl, repoUrl, pullAddress]

/-- The comments are asked for without a query. -/
theorem commentsUrl_eq_commentsAddress (client : Client) (pr : PullRequest) :
    client.commentsUrl pr = commentsAddress client.apiRoot pr ++ [] := by
  simp [commentsUrl, repoUrl, commentsAddress]

theorem isFor_request (client : Client) (url : Text) :
    IsFor url client.token (client.request url) := ⟨rfl, rfl⟩

/-- An answer that decodes is what is fetched. -/
theorem get_of_delivers {α : Type} {decode? : Json.Tree → Option α} {holds : Json.Tree → Prop}
    {good : α → Prop} {url : Text} (h : Delivers holds (network (client.request url)))
    (hdecode : ∀ tree, holds tree → ∃ answer, decode? tree = some answer ∧ good answer) :
    ∃ answer, client.get network decode? url = .ok answer ∧ good answer := by
  obtain ⟨content, tree, hresponse, htree, hholds⟩ := h
  obtain ⟨answer, hanswer, hgood⟩ := hdecode tree hholds
  have hsuccess : isSuccess 200 = true := rfl
  refine ⟨answer, ?_, hgood⟩
  simp [get, hresponse, hsuccess, htree, hanswer]

section
variable (h : checkPullRequest pr = .ok ())
include h

theorem body_of_check :
    client.body network pr
      = (client.get network Payload.details? (client.bodyUrl pr)).map (·.getD []) := by
  rw [body, h]
  cases client.get network Payload.details? (client.bodyUrl pr) <;> rfl

theorem comments_of_check :
    client.comments network pr
      = client.get network Payload.comments? (client.commentsUrl pr) := by
  rw [comments, h]
  rfl

end

section
variable (howner : pr.owner ≠ []) (hrepo : pr.repo ≠ []) (hnumber : pr.number ≠ 0)
include howner hrepo hnumber

theorem checkPullRequest_of_named : checkPullRequest pr = .ok () := by
  have howner' : pr.owner.isEmpty = false := by simpa using howner
  have hrepo' : pr.repo.isEmpty = false := by simpa using hrepo
  simp only [checkPullRequest, checkRepo, howner', hrepo', hnumber, Bool.false_eq_true, ↓reduceIte]
  rfl

variable {body : Text} {comments : List Text}
  (h : Serves client.apiRoot client.token pr body comments network)
include h

/-- The body and the first page of the comments are fetched. -/
theorem source_text_of_serves :
    (client.source network).text pr = .ok (body, comments.take 30) := by
  have hcheck := checkPullRequest_of_named howner hrepo hnumber
  have hpull : Delivers (IsRecord body) (network (client.request (client.bodyUrl pr))) := by
    rw [bodyUrl_eq_pullAddress]
    exact h.pull _ (isFor_request client _)
  -- No query is sent, and that asks for the first page.
  have hpage : Delivers (AreRecords (comments.take 30))
      (network (client.request (client.commentsUrl pr))) := by
    rw [commentsUrl_eq_commentsAddress]
    exact h.comments [] .first _ rfl (isFor_request client _)
  obtain ⟨details, hdetails, rfl⟩ := get_of_delivers hpull fun _ => details?_of_isRecord
  obtain ⟨_, hcomments, rfl⟩ := get_of_delivers hpage
    fun _ hrecords => ⟨_, comments?_of_areRecords hrecords, rfl⟩
  simp only [Source.text, source, body_of_check hcheck, comments_of_check hcheck, hdetails,
    hcomments]
  rfl

/-- **What is fetched of a conversation.** Whatever the number of comments, the answer is the body
and the first thirty of them in their order, and so it is the whole conversation exactly if there
are no more. The base URL of the plan is then the one of the last text with a base URL among those
fetched; it is the one of the whole conversation exactly if the comments that are missing have none,
or end with the same one. -/
theorem source_text_eq_iff :
    (client.source network).text pr = .ok (body, comments.take 30)
      ∧ ((client.source network).text pr = .ok (body, comments) ↔ comments.length ≤ 30)
      ∧ ∀ tags, (Plan.ofPullRequest body tags (comments.take 30)).baseUrl
            = Plan.lastUrl? (body :: comments.take 30)
          ∧ ((Plan.ofPullRequest body tags (comments.take 30)).baseUrl
                = Plan.lastUrl? (body :: comments) ↔
              Plan.lastUrl? (comments.drop 30) = none
                ∨ Plan.lastUrl? (comments.drop 30) = Plan.lastUrl? (body :: comments.take 30)) := by
  have htext := source_text_of_serves howner hrepo hnumber h
  refine ⟨htext, ?_, fun tags => ?_⟩
  · rw [htext, Except.ok.injEq, Prod.mk.injEq, List.take_eq_self_iff]
    simp
  · have hurl : (Plan.ofPullRequest body tags (comments.take 30)).baseUrl
        = Plan.lastUrl? (body :: comments.take 30) := Plan.ofPullRequest_baseUrl _ _ _
    -- A URL behind the first page counts before all those on it.
    have hsplit : Plan.lastUrl? (body :: comments)
        = (Plan.lastUrl? (comments.drop 30)).or (Plan.lastUrl? (body :: comments.take 30)) := by
      rw [← Plan.lastUrl?_append, List.cons_append, List.take_append_drop]
    refine ⟨hurl, ?_⟩
    rw [hurl, hsplit]
    cases Plan.lastUrl? (comments.drop 30) with
    | none => simp
    | some late => simp [eq_comm]

end

/-! ### Conversations of one and of two pages -/

/-- A client with the default settings. -/
def publicClient : Client := ⟨Settings.default.apiUrl, "token".toList, Settings.default.userAgent⟩

/-- A pull request that the server keeps. -/
def firstPull : PullRequest := ⟨"o".toList, "r".toList, 1⟩

/-- The server for that client; the pull request has no body. -/
def publicServer (comments : List Text) : Network :=
  server publicClient.apiRoot publicClient.token firstPull [] comments

/-- The comment of a deployment, among others. -/
def deployed (before behind : Nat) : List Text :=
  List.replicate before "ok".toList ++ "Test URL: https://preview.example".toList
    :: List.replicate behind "ok".toList

theorem source_text_eq_iff_deployed :
    (publicClient.source (publicServer (deployed 1 28))).text firstPull = .ok ([], deployed 1 28)
      ∧ (Plan.ofPullRequest [] [] ((deployed 1 28).take 30)).baseUrl
          = some "https://preview.example".toList := by
  have hserves := serves_server publicClient.apiRoot publicClient.token firstPull [] (deployed 1 28)
  obtain ⟨-, hwhole, hurl⟩ :=
    source_text_eq_iff (by decide) (by decide) (by decide) hserves
  refine ⟨hwhole.2 (by decide), ?_⟩
  rw [(hurl []).1]
  decide +kernel

/-- The comment that counts is the first one behind the page. -/
theorem source_text_loses_comment :
    Serves publicClient.apiRoot publicClient.token firstPull [] (deployed 30 0)
        (publicServer (deployed 30 0))
      ∧ (publicClient.source (publicServer (deployed 30 0))).text firstPull
          = .ok ([], List.replicate 30 "ok".toList)
      ∧ (publicClient.source (publicServer (deployed 30 0))).text firstPull
          ≠ .ok ([], deployed 30 0)
      ∧ (Plan.ofPullRequest [] [] (List.replicate 30 "ok".toList)).baseUrl = none
      ∧ Plan.lastUrl? ([] :: deployed 30 0) = some "https://preview.example".toList := by
  have hserves := serves_server publicClient.apiRoot publicClient.token firstPull [] (deployed 30 0)
  have htext := source_text_of_serves (by decide) (by decide) (by decide) hserves
  have hpage : (deployed 30 0).take 30 = List.replicate 30 "ok".toList := by decide +kernel
  rw [hpage] at htext
  refine ⟨hserves, htext, fun hwhole => ?_, by decide +kernel, by decide +kernel⟩
  have hsame := Except.ok.inj (htext.symm.trans hwhole)
  exact absurd (congrArg (·.2.length) hsame) (by decide)

end Client
end GitHub
end PullPlan
