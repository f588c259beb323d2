import PullPlan.Proofs.ListBlock.Progress
import PullPlan.Proofs.Plan.LastWrite
import PullPlan.Proofs.Text.Returns

/-!
# Line ends do not matter

A text may be written with line feeds alone, with a carriage return before each of them, or with any
mixture, and two carriage returns may come together where such a text is converted once more. A line
then keeps all of its carriage returns but one.

None of the rules that look at a line sees a carriage return at its end: the rules for directives
and bullets trim the line, and the others look for texts that have no carriage return in them. So
each rule sees the stem of a line alone, and the stems are the same in all such texts
(`Text.map_stem_lines`). `ofPullRequest_addsReturns` says so for the whole plan.
-/

namespace PullPlan

/-! ### Directives -/

namespace Directive

/-- A text with none of the phrases has none of them either when a carriage return is put behind
it. -/
theorem any_mentions_append_return {phrases : List Text} (h : ∀ phrase ∈ phrases, '\r' ∉ phrase)
    (t : Text) :
    (phrases.any fun phrase => Text.mentions phrase (t ++ ['\r']))
      = phrases.any fun phrase => Text.mentions phrase t := by
  induction phrases with
  | nil => rfl
  | cons phrase phrases ih =>
    obtain ⟨hphrase, hphrases⟩ := List.forall_mem_cons.1 h
    rw [List.any_cons, List.any_cons, Text.mentions_append_singleton hphrase, ih hphrases]

theorem runSuite?_append_return (line : Text) : runSuite? (line ++ ['\r']) = runSuite? line := by
  have hlower : Text.toLowerAscii (line ++ ['\r']) = Text.toLowerAscii line ++ ['\r'] := by
    unfold Text.toLowerAscii
    rw [List.map_append]
    rfl
  have hchecked : ∀ phrase ∈ checkedPhrases, '\r' ∉ phrase := by decide
  have hunchecked : ∀ phrase ∈ uncheckedPhrases, '\r' ∉ phrase := by decide
  unfold runSuite?
  dsimp only
  rw [hlower, any_mentions_append_return hchecked, any_mentions_append_return hunchecked]

end Directive

/-! ### Tags -/

namespace Tags

/-- The selection of a text is made by the stems of its lines. -/
theorem scan_eq_of_stems {t u : Text}
    (h : (Text.lines u).map Text.stem = (Text.lines t).map Text.stem) {tags : List Text}
    (htags : ∀ tag ∈ tags, '\r' ∉ tag) : scan u tags = scan t tags := by
  have hmentions : ∀ {needle : Text}, '\r' ∉ needle → ∀ line,
      Text.mentions needle (Text.stem line) = Text.mentions needle line :=
    fun hneedle => Text.apply_stem (Text.mentions_append_singleton hneedle)
  have hmark : '\r' ∉ checkedMark := by decide
  have hphrase : '\r' ∉ allTestsPhrase := by decide
  -- The checked lines of a text have the checked ones of the stems as their stems.
  have hchecked : ∀ text : Text, (checkedLines text).map Text.stem
      = ((Text.lines text).map Text.stem).filter isChecked := by
    intro text
    rw [List.filter_map]
    exact congrArg _ (List.filter_congr fun line _ => (hmentions hmark line).symm)
  have hstems : (checkedLines u).map Text.stem = (checkedLines t).map Text.stem := by
    rw [hchecked, hchecked, h]
  have hany : ∀ text : Text, (checkedLines text).any (Text.mentions allTestsPhrase)
      = ((checkedLines text).map Text.stem).any (Text.mentions allTestsPhrase) := by
    intro text
    rw [List.any_map]
    congr 1
    funext line
    exact (hmentions hphrase line).symm
  have hfound : ∀ text : Text,
      ((checkedLines text).flatMap fun line => tags.filter fun tag => Text.mentions tag line)
        = ((checkedLines text).map Text.stem).flatMap fun line =>
            tags.filter fun tag => Text.mentions tag line := by
    intro text
    rw [List.flatMap_map]
    congr 1
    funext line
    exact List.filter_congr fun tag htag => (hmentions (htags tag htag) line).symm
  unfold scan
  rw [hany u, hfound u, hstems, ← hany t, ← hfound t]

end Tags

/-! ### List blocks -/

namespace ListBlock

theorem classify_stem (line : Text) : classify (Text.stem line) = classify line := by
  refine Text.apply_stem (fun line => ?_) line
  unfold classify
  rw [Text.trim_append Text.isBlank_return]

/-- The items behind a marker are decided by the stems of the lines. -/
theorem items_eq_of_stems {marker : Text} (hmarker : '\r' ∉ marker) {t u : Text}
    (h : (Text.lines u).map Text.stem = (Text.lines t).map Text.stem) :
    items marker u = items marker t := by
  have hmentions : ∀ line, Text.mentions marker (Text.stem line) = Text.mentions marker line :=
    Text.apply_stem (Text.mentions_append_singleton hmarker)
  have hbehind : ∀ text : Text, (linesBehind marker text).map Text.stem
      = (((Text.lines text).map Text.stem).dropWhile fun line =>
          !Text.mentions marker line).drop 1 := by
    intro text
    rw [List.dropWhile_map, ← List.map_drop]
    unfold linesBehind Function.comp
    simp only [hmentions]
  calc items marker u
      = itemsFrom .start ((linesBehind marker u).map Text.stem) := by
        rw [itemsFrom_map classify_stem, items_eq]
    _ = itemsFrom .start ((linesBehind marker t).map Text.stem) := by
        rw [hbehind, hbehind, h]
    _ = items marker t := by
        rw [itemsFrom_map classify_stem, items_eq]

end ListBlock

/-! ### Plans -/

namespace Plan

open Directive

theorem readLine_stem (plan : Plan) (line : Text) :
    readLine plan (Text.stem line) = readLine plan line := by
  refine Text.apply_stem (f := readLine plan) (fun line => ?_) line
  unfold readLine
  rw [runSuite?_append_return, baseUrl?_append_blanks Text.isBlank_return,
    assignment?_append_blanks Text.isBlank_return]

theorem foldl_readLine_map_stem (lines : List Text) (plan : Plan) :
    (lines.map Text.stem).foldl readLine plan = lines.foldl readLine plan := by
  rw [List.foldl_map]
  congr 1
  funext plan line
  exact readLine_stem plan line

/-- A comment with more carriage returns has the same last base URL. -/
theorem lastBaseUrl?_addsReturns {comment comment' : Text}
    (h : Text.AddsReturns comment comment') : lastBaseUrl? comment' = lastBaseUrl? comment := by
  have hstem : ∀ line, baseUrl? (Text.stem line) = baseUrl? line :=
    Text.apply_stem (baseUrl?_append_blanks Text.isBlank_return)
  have hlines : ∀ text : Text, (Text.lines text).filterMap baseUrl?
      = ((Text.lines text).map Text.stem).filterMap baseUrl? := by
    intro text
    rw [List.filterMap_map]
    exact List.filterMap_congr fun line _ => (hstem line).symm
  unfold lastBaseUrl?
  rw [hlines, Text.map_stem_lines h, ← hlines]

theorem foldl_readComment_addsReturns {comments comments' : List Text}
    (h : List.Forall₂ Text.AddsReturns comments comments') (plan : Plan) :
    comments'.foldl readComment plan = comments.foldl readComment plan := by
  induction h generalizing plan with
  | nil => rfl
  | @cons comment comment' comments comments' hcomment hcomments ih =>
    have hread : readComment plan comment' = readComment plan comment := by
      rw [readComment_eq, readComment_eq, lastBaseUrl?_addsReturns hcomment]
    rw [List.foldl_cons, List.foldl_cons, hread, ih]

/-- **Line ends do not matter.** Let the tags be texts without carriage returns. Inserting any
number of carriage returns directly before any of the line feeds of a body and of its comments
leaves the plan as it is. In particular, a text in which each line feed has a carriage return before
it has the plan of the text in which none has. -/
theorem ofPullRequest_addsReturns (body : Text) (comments : List Text) {tags : List Text}
    (htags : ∀ tag ∈ tags, '\r' ∉ tag) :
    (∀ body' comments', Text.AddsReturns body body' →
      List.Forall₂ Text.AddsReturns comments comments' →
      ofPullRequest body' tags comments' = ofPullRequest body tags comments) ∧
    ofPullRequest (Text.crlf body) tags (comments.map Text.crlf)
      = ofPullRequest body tags comments := by
  have hmain : ∀ body' comments', Text.AddsReturns body body' →
      List.Forall₂ Text.AddsReturns comments comments' →
      ofPullRequest body' tags comments' = ofPullRequest body tags comments := by
    intro body' comments' hbody hcomments
    have hstems := Text.map_stem_lines hbody
    have hlines : (Text.lines body').foldl readLine empty
        = (Text.lines body).foldl readLine empty := by
      rw [← foldl_readLine_map_stem, hstems, foldl_readLine_map_stem]
    have hspecs : ListBlock.specs body' = ListBlock.specs body :=
      ListBlock.items_eq_of_stems (by decide) hstems
    have hpages : ListBlock.pages body' = ListBlock.pages body :=
      ListBlock.items_eq_of_stems (by decide) hstems
    have hscan := Tags.scan_eq_of_stems hstems htags
    unfold ofPullRequest
    dsimp only
    rw [hlines, hspecs, hpages, hscan, foldl_readComment_addsReturns hcomments]
  refine ⟨hmain, hmain _ _ (Text.addsReturns_crlf body) ?_⟩
  rw [List.forall₂_map_right_iff]
  exact List.forall₂_same.2 fun comment _ => Text.addsReturns_crlf comment

/-- A body in which the keyword of a base URL, a lone dash and a blank line end with line feeds. -/
def feedBody : Text :=
  ("baseUrl\nCYPRESS_code=\"007\"\n- [x] run E2E tests @sanity\n".toList
    ++ "Run these Cypress specs too:\n-\n- `a.cy.js`\n\n- b.cy.js\n".toList)

/-- Where a text was converted twice, each line keeps one carriage return, and the plan is the one
of the text without any. -/
theorem ofPullRequest_addsReturns_twice :
    (ofPullRequest (Text.crlf (Text.crlf feedBody)) ["@sanity".toList]
        [Text.crlf (Text.crlf "Test URL: http://a\n".toList)]).baseUrl = some "http://a".toList ∧
    (ofPullRequest (Text.crlf (Text.crlf feedBody)) ["@sanity".toList] []).tags
      = ["@sanity".toList] ∧
    (ofPullRequest (Text.crlf (Text.crlf feedBody)) ["@sanity".toList] []).specs
      = ["a.cy.js".toList] := by
  have htags : ∀ tag ∈ ["@sanity".toList], '\r' ∉ tag := by decide
  have htwice : Text.AddsReturns (Text.crlf feedBody) (Text.crlf (Text.crlf feedBody)) :=
    Text.addsReturns_crlf _
  have hcomment : List.Forall₂ Text.AddsReturns [Text.crlf "Test URL: http://a\n".toList]
      [Text.crlf (Text.crlf "Test URL: http://a\n".toList)] :=
    .cons (Text.addsReturns_crlf _) .nil
  have hwith := (ofPullRequest_addsReturns (Text.crlf feedBody) _ htags).1 _ _ htwice hcomment
  have hwithout := (ofPullRequest_addsReturns (Text.crlf feedBody) [] htags).1 _ _ htwice .nil
  have hfeed := (ofPullRequest_addsReturns feedBody [] htags).2
  rw [List.map_nil] at hfeed
  rw [hwith, hwithout, hfeed]
  exact ⟨by decide +kernel, by decide +kernel, by decide +kernel⟩

end Plan
end PullPlan
