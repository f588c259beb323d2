import PullPlan.Proofs.ListBlock.Independence
import PullPlan.Proofs.Plan.LastWrite

/-!
# Plans of joined bodies

A body that is empty or ends with a line feed can be followed by another one without any line being
split or joined (`Text.lines_append`). Each part of a plan is then decided by the two bodies on
their own: a later directive overwrites an earlier one, checked tags add up, and a list block
belongs to the body that has it, unless it is still open at the seam.

`ofPullRequest_append` says so for all parts of a plan at once. The block that is open at the seam
is the subject of `ListBlock.items_append_eq_iff`.
-/

namespace PullPlan

/-! ### Tags -/

namespace Tags

variable {front : Text}

theorem checkedLines_append (hfront : front = [] ∨ front.getLast? = some '\n') (back : Text) :
    checkedLines (front ++ back) = checkedLines front ++ checkedLines back := by
  unfold checkedLines
  rw [Text.lines_append hfront, List.filter_append]

theorem scan_append (hfront : front = [] ∨ front.getLast? = some '\n') (back : Text)
    {tags : List Text} (htags : tags ≠ []) :
    scan (front ++ back) tags
      = ⟨(scan front tags).runAll || (scan back tags).runAll,
          (scan front tags).tags ++ (scan back tags).tags⟩ := by
  have hne : tags.isEmpty = false := by simpa using htags
  unfold scan
  rw [hne, checkedLines_append hfront, List.any_append, List.flatMap_append]
  rfl

end Tags

namespace Plan

open Directive ListBlock

/-- One of the two lists of a plan. -/
def listed (plan : Plan) : Kind → List Text
  | .specs => plan.specs
  | .pages => plan.pages

theorem ofPullRequest_listed (body : Text) (tags comments : List Text) (kind : Kind) :
    (ofPullRequest body tags comments).listed kind = ListBlock.items kind.marker body := by
  rw [ofPullRequest, foldl_readComment_eq]
  cases kind <;> rfl

theorem ofPullRequest_selection (body : Text) (tags comments : List Text) :
    (ofPullRequest body tags comments).runAll = (Tags.scan body tags).runAll ∧
      (ofPullRequest body tags comments).tags = (Tags.scan body tags).tags :=
  ⟨rfl, rfl⟩

variable {front : Text}

theorem ofPullRequest_append_baseUrl (hfront : front = [] ∨ front.getLast? = some '\n')
    (back : Text) (tags comments : List Text) :
    (ofPullRequest (front ++ back) tags comments).baseUrl
      = (((comments.flatMap Text.lines).filterMap baseUrl?).getLast?).or
          ((ofPullRequest back tags []).baseUrl.or (ofPullRequest front tags []).baseUrl) := by
  rw [ofPullRequest_baseUrl, ofPullRequest_baseUrl, ofPullRequest_baseUrl]
  simp only [List.flatMap_cons, List.flatMap_nil, List.append_nil, Text.lines_append hfront,
    List.filterMap_append, List.getLast?_append]

/-- **A plan is put together from the plans of the parts of its body.** Let the first part be empty
or end with a line feed. Then the base URL is the one of the comments, else of the second part, else
of the first. A variable has the value that the second part gives it, else the first. The box for
the suite that counts is the one of the second part, else of the first. All tests are selected if
either part selects them, and the checked tags of the parts follow each other; where there are no
tags to look for, all tests are selected. Each list is the one of the second part if the first part
does not mention its marker, and the one of the first part if the block ends there. -/
theorem ofPullRequest_append (hfront : front = [] ∨ front.getLast? = some '\n') (back : Text)
    (tags comments : List Text) :
    (ofPullRequest (front ++ back) tags comments).baseUrl
        = (((comments.flatMap Text.lines).filterMap baseUrl?).getLast?).or
            ((ofPullRequest back tags []).baseUrl.or (ofPullRequest front tags []).baseUrl) ∧
    (∀ key, (ofPullRequest (front ++ back) tags comments).environment.get? key
        = ((ofPullRequest back tags []).environment.get? key).or
            ((ofPullRequest front tags []).environment.get? key)) ∧
    (ofPullRequest (front ++ back) tags comments).shouldRunSuite
        = (ofPullRequest back tags []).shouldRunSuite.or
            (ofPullRequest front tags []).shouldRunSuite ∧
    (tags ≠ [] →
      (ofPullRequest (front ++ back) tags comments).runAll
          = ((ofPullRequest front tags []).runAll || (ofPullRequest back tags []).runAll) ∧
      (ofPullRequest (front ++ back) tags comments).tags
          = (ofPullRequest front tags []).tags ++ (ofPullRequest back tags []).tags) ∧
    (tags = [] →
      (ofPullRequest (front ++ back) tags comments).runAll = true ∧
      (ofPullRequest (front ++ back) tags comments).tags = []) ∧
    ∀ kind : Kind,
      ((∀ line ∈ Text.lines front, Text.mentions kind.marker line = false) →
        (ofPullRequest (front ++ back) tags comments).listed kind
          = (ofPullRequest back tags []).listed kind) ∧
      (progressAtEnd? kind.marker front = none →
        (ofPullRequest (front ++ back) tags comments).listed kind
          = (ofPullRequest front tags []).listed kind) := by
  refine ⟨ofPullRequest_append_baseUrl hfront back tags comments, fun key => ?_, ?_,
    fun htags => ?_, ?_, fun kind => ⟨fun hmarker => ?_, fun hended => ?_⟩⟩
  · simp only [ofPullRequest_environment_get?, Text.lines_append hfront, List.filterMap_append,
      List.getLast?_append]
  · simp only [ofPullRequest_shouldRunSuite, Text.lines_append hfront, List.filterMap_append,
      List.getLast?_append]
  · have hscan := Tags.scan_append hfront back htags
    obtain ⟨hall, htags⟩ := ofPullRequest_selection (front ++ back) tags comments
    rw [hall, htags, hscan]
    exact ⟨rfl, rfl⟩
  · rintro rfl
    exact ⟨rfl, rfl⟩
  · rw [ofPullRequest_listed, ofPullRequest_listed, items_append_of_not_mentioned hmarker hfront]
  · rw [ofPullRequest_listed, ofPullRequest_listed, items_append_of_ended hended hfront]

/-- A body with a block of specs that a blank line ends. -/
def specsBody : Text :=
  "CYPRESS_user=alice\n- [x] @sanity\nRun these Cypress specs too:\n- a.cy.js\n\n".toList

/-- A body with a block of pages. -/
def pagesBody : Text :=
  "CYPRESS_user=bob\nbaseUrl http://b\nRun these pages too:\n- /about\n".toList

/-- Behind a block that has ended, the bullets of the second part are taken for pages alone. -/
theorem ofPullRequest_append_specsBody :
    (ofPullRequest (specsBody ++ pagesBody) ["@sanity".toList] []).listed .specs
      = ["a.cy.js".toList] ∧
    (ofPullRequest (specsBody ++ pagesBody) ["@sanity".toList] []).listed .pages
      = ["/about".toList] ∧
    (ofPullRequest (specsBody ++ pagesBody) ["@sanity".toList] []).tags = ["@sanity".toList] ∧
    (ofPullRequest (specsBody ++ pagesBody) ["@sanity".toList] []).baseUrl
      = some "http://b".toList := by
  have hfront : specsBody = [] ∨ specsBody.getLast? = some '\n' := .inr (by decide)
  obtain ⟨hurl, -, -, htags, -, hlists⟩ :=
    ofPullRequest_append hfront pagesBody ["@sanity".toList] []
  have hspecs := (hlists .specs).2 (by decide)
  have hpages := (hlists .pages).1 (by decide)
  have htags := (htags (by decide)).2
  exact ⟨hspecs.trans (by decide), hpages.trans (by decide), htags.trans (by decide),
    hurl.trans (by decide)⟩

end Plan
end PullPlan
