import Mathlib.Data.List.Basic
import Mathlib.Data.List.Perm.Basic
import PullPlan.Tags

/-!
# What a scan for tags counts

A tag is counted once for each line that checks it and once for each time that it stands in the
list of tags to look for, whatever other tags the line mentions. `Tags.scan_eq` is the one equation
behind this: line by line, the tags that the line checks are kept and the others are left out.

`Place` says where a tag is checked, by the number of the line and the number of the tag in the
list. The tags of a scan are those at all such places in ascending order (`exists_places`), which
fixes the order of the result together with its repetitions. `scan_counts` has all of it, and what
it comes to for a list in another order and for a part of the list.
-/

namespace PullPlan
namespace Tags

/-- Whether a line is checked and mentions a text. -/
def checks (line needle : Text) : Bool :=
  Text.mentions checkedMark line && Text.mentions needle line

/-! ### Lines and tags -/

/-- A scan keeps of each line the tags that it checks. -/
theorem scan_eq (text : Text) {tags : List Text} (htags : tags ≠ []) :
    scan text tags
      = { runAll := (Text.lines text).any fun line => checks line allTestsPhrase
          tags := (Text.lines text).flatMap fun line => tags.filter (checks line) } := by
  have hne : tags.isEmpty = false := by simpa using htags
  -- A line that is not checked yields nothing, so it need not be left out beforehand.
  have hfound : ∀ lines : List Text,
      ((lines.filter isChecked).flatMap fun line => tags.filter fun tag => Text.mentions tag line)
        = lines.flatMap fun line => tags.filter (checks line) := by
    intro lines
    induction lines with
    | nil => rfl
    | cons line lines ih =>
      unfold checks at ih ⊢
      cases hchecked : isChecked line with
      | true =>
        have hmark : Text.mentions checkedMark line = true := hchecked
        simp only [List.filter_cons_of_pos hchecked, List.flatMap_cons, ih, hmark, Bool.true_and]
      | false =>
        have hmark : Text.mentions checkedMark line = false := hchecked
        simp [hchecked, ih, hmark]
  unfold scan checkedLines
  rw [hne, hfound, List.any_filter]
  rfl

theorem count_filter_checks (line t : Text) (tags : List Text) :
    (tags.filter (checks line)).count t = tags.count t * if checks line t then 1 else 0 := by
  by_cases ht : checks line t = true
  · rw [List.count_filter ht, if_pos ht, Nat.mul_one]
  · have hmem : t ∉ tags.filter (checks line) := fun h => ht (List.mem_filter.1 h).2
    rw [List.count_eq_zero_of_not_mem hmem, if_neg ht, Nat.mul_zero]

/-- Each line that checks a tag brings it as often as it stands in the list. -/
theorem count_flatMap_checks (t : Text) (tags lines : List Text) :
    (lines.flatMap fun line => tags.filter (checks line)).count t
      = tags.count t * lines.countP fun line => checks line t := by
  induction lines with
  | nil => rfl
  | cons line lines ih =>
    rw [List.flatMap_cons, List.count_append, ih, count_filter_checks, List.countP_cons,
      ← Nat.mul_add, Nat.add_comm]

/-! ### Places -/

/-- A place where a tag may be checked. -/
structure Place where
  /-- The number of the line in the text. -/
  line : Nat
  /-- The number of the tag in the list of tags to look for. -/
  tag : Nat
  deriving DecidableEq

namespace Place

/-- Places are read line by line, and on a line in the order of the tags. -/
def Before (p q : Place) : Prop := p.line < q.line ∨ p.line = q.line ∧ p.tag < q.tag

/-- Whether the line of a place checks its tag. -/
def IsChecked (lines tags : List Text) (p : Place) : Prop :=
  ∃ line tag, lines[p.line]? = some line ∧ tags[p.tag]? = some tag ∧ checks line tag = true

end Place

/-- The places where some lines check some tags. -/
def places (lines tags : List Text) : List Place :=
  lines.zipIdx.flatMap fun line =>
    (tags.zipIdx.filter fun tag => checks line.1 tag.1).map fun tag => ⟨line.2, tag.2⟩

theorem mem_places_iff {lines tags : List Text} {p : Place} :
    p ∈ places lines tags ↔ p.IsChecked lines tags := by
  unfold places Place.IsChecked
  simp only [List.mem_flatMap, List.mem_map, List.mem_filter, List.mem_zipIdx_iff_getElem?]
  constructor
  · rintro ⟨⟨line, i⟩, hline, ⟨tag, j⟩, ⟨htag, hchecks⟩, rfl⟩
    exact ⟨line, tag, hline, htag, hchecks⟩
  · rintro ⟨line, tag, hline, htag, hchecks⟩
    exact ⟨(line, p.line), hline, (tag, p.tag), ⟨htag, hchecks⟩, rfl⟩

/-- The numbers of a list ascend. -/
theorem pairwise_zipIdx (l : List Text) : l.zipIdx.Pairwise fun a b => a.2 < b.2 := by
  have hrange : (l.zipIdx.map Prod.snd).Pairwise (· < ·) := by
    rw [List.zipIdx_map_snd]
    exact List.pairwise_lt_range'
  exact List.pairwise_map.1 hrange

theorem pairwise_places (lines tags : List Text) : (places lines tags).Pairwise Place.Before := by
  unfold places
  apply List.pairwise_flatMap.2
  constructor
  · intro line _
    apply List.pairwise_map.2
    apply List.Pairwise.filter
    exact (pairwise_zipIdx tags).imp fun hlt => .inr ⟨rfl, hlt⟩
  · refine (pairwise_zipIdx lines).imp ?_
    intro a b hlt p hp q hq
    obtain ⟨_, -, rfl⟩ := List.mem_map.1 hp
    obtain ⟨_, -, rfl⟩ := List.mem_map.1 hq
    exact .inl hlt

/-- The tags at the places are the tags that the lines check. -/
theorem map_places (lines tags : List Text) :
    (places lines tags).map (fun p => tags[p.tag]?)
      = (lines.flatMap fun line => tags.filter (checks line)).map some := by
  -- On one line, numbering the tags and looking them up again changes nothing.
  have hline : ∀ line : Text × Nat,
      ((tags.zipIdx.filter fun tag => checks line.1 tag.1).map fun tag => tags[tag.2]?)
        = (tags.filter (checks line.1)).map some := by
    intro line
    have hlookup : ((tags.zipIdx.filter fun tag => checks line.1 tag.1).map fun tag => tags[tag.2]?)
        = (tags.zipIdx.filter fun tag => checks line.1 tag.1).map fun tag => some tag.1 := by
      apply List.map_congr_left
      intro tag htag
      exact List.mem_zipIdx_iff_getElem?.1 (List.mem_of_mem_filter htag)
    have hfst : tags.filter (checks line.1)
        = (tags.zipIdx.filter fun tag => checks line.1 tag.1).map Prod.fst := by
      conv_lhs => rw [← List.zipIdx_map_fst 0 tags]
      rw [List.filter_map]
      rfl
    rw [hlookup, hfst, List.map_map]
    rfl
  have hlines : lines.flatMap (fun line => tags.filter (checks line))
      = lines.zipIdx.flatMap fun line => tags.filter (checks line.1) := by
    conv_lhs => rw [← List.zipIdx_map_fst 0 lines]
    rw [List.flatMap_map]
  unfold places
  rw [hlines, List.map_flatMap, List.map_flatMap]
  apply List.flatMap_congr
  intro line _
  rw [List.map_map]
  exact hline line

/-- The tags of a scan stand in the order of the places where they are checked. -/
theorem exists_places (text : Text) {tags : List Text} (htags : tags ≠ []) :
    ∃ found : List Place, found.Pairwise Place.Before ∧
      (∀ p, p ∈ found ↔ p.IsChecked (Text.lines text) tags) ∧
      (scan text tags).tags.map some = found.map fun p => tags[p.tag]? := by
  refine ⟨places (Text.lines text) tags, pairwise_places _ _, fun p => mem_places_iff, ?_⟩
  rw [scan_eq text htags]
  exact (map_places _ _).symm

/-! ### Other lists of tags -/

theorem scan_runAll_iff (text : Text) {tags : List Text} (htags : tags ≠ []) :
    (scan text tags).runAll = true
      ↔ ∃ line ∈ Text.lines text, checks line allTestsPhrase = true := by
  rw [scan_eq text htags]
  exact List.any_eq_true

/-- In another order of the list, the same tags are found on each line. -/
theorem scan_perm (text : Text) {tags tags' : List Text} (htags : tags ≠ [])
    (hperm : tags'.Perm tags) :
    (scan text tags').runAll = (scan text tags).runAll ∧
      (scan text tags').tags.Perm (scan text tags).tags := by
  have htags' : tags' ≠ [] := by
    rintro rfl
    exact htags (List.nil_perm.1 hperm)
  rw [scan_eq text htags, scan_eq text htags']
  refine ⟨rfl, ?_⟩
  apply List.Perm.flatMap_left
  intro line _
  exact hperm.filter (checks line)

/-- With a part of the list, that part of the tags is found. -/
theorem scan_filter (text : Text) {tags : List Text} {p : Text → Bool}
    (hp : ∃ tag ∈ tags, p tag = true) :
    scan text (tags.filter p)
      = { runAll := (scan text tags).runAll, tags := (scan text tags).tags.filter p } := by
  obtain ⟨tag, htag, hkept⟩ := hp
  have hkept' : tag ∈ tags.filter p := List.mem_filter.2 ⟨htag, hkept⟩
  rw [scan_eq text (List.ne_nil_of_mem htag), scan_eq text (List.ne_nil_of_mem hkept')]
  dsimp only
  rw [List.filter_flatMap]
  congr 1
  apply List.flatMap_congr
  intro line _
  rw [List.filter_filter, List.filter_filter]
  exact List.filter_congr fun t _ => Bool.and_comm _ _

/-- **A scan counts every checked mention once.** Let there be tags to look for. A text is found as
often as it stands in the list times the number of lines that check it. The tags found are those at
the places where a line checks a tag, line by line and on a line in the order of the list. All tests
are selected exactly if some line checks the phrase for them. So in another order of the list the
same tags are found as often, and with the tags of the list that have some property, of which there
is one, just those of the tags found that have it. -/
theorem scan_counts (text : Text) {tags : List Text} (htags : tags ≠ []) :
    (∀ t, (scan text tags).tags.count t
        = tags.count t * (Text.lines text).countP fun line => checks line t) ∧
    (∃ found : List Place, found.Pairwise Place.Before ∧
      (∀ p, p ∈ found ↔ p.IsChecked (Text.lines text) tags) ∧
      (scan text tags).tags.map some = found.map fun p => tags[p.tag]?) ∧
    ((scan text tags).runAll = true
      ↔ ∃ line ∈ Text.lines text, checks line allTestsPhrase = true) ∧
    (∀ tags', List.Perm tags' tags →
      (scan text tags').runAll = (scan text tags).runAll ∧
        (scan text tags').tags.Perm (scan text tags).tags) ∧
    (∀ p : Text → Bool, (∃ tag ∈ tags, p tag = true) →
      scan text (tags.filter p)
        = { runAll := (scan text tags).runAll, tags := (scan text tags).tags.filter p }) := by
  refine ⟨fun t => ?_, exists_places text htags, scan_runAll_iff text htags,
    fun tags' hperm => scan_perm text htags hperm, fun p hp => scan_filter text hp⟩
  rw [scan_eq text htags]
  exact count_flatMap_checks t tags (Text.lines text)

/-- Two checked lines, and one that is not. -/
def nightlyText : Text :=
  "- [x] @sanity-slow\n- [ ] @sanity, all tests\n- [x] small tests: @quick, @sanity".toList

/-- Tags of which one stands twice and in another one. -/
def nightlyTags : List Text :=
  ["@quick".toList, "@sanity".toList, "@sanity-slow".toList, "@sanity".toList]

/-- The phrase for all tests counts inside a longer word as well. -/
theorem scan_counts_nightly :
    (scan nightlyText nightlyTags).tags.count "@sanity".toList = 4 ∧
    (scan nightlyText nightlyTags).runAll = true ∧
    (scan nightlyText nightlyTags.reverse).tags.Perm (scan nightlyText nightlyTags).tags ∧
    scan nightlyText ["@quick".toList] = ⟨true, ["@quick".toList]⟩ := by
  obtain ⟨hcount, -, hall, hperm, hfilter⟩ := scan_counts nightlyText
    (show nightlyTags ≠ [] by decide)
  refine ⟨(hcount _).trans (by decide), hall.2 ?_, (hperm _ (List.reverse_perm _)).2, ?_⟩
  · exact ⟨"- [x] small tests: @quick, @sanity".toList, by decide, by decide⟩
  · have hquick :=
      hfilter (fun tag => tag == "@quick".toList) ⟨"@quick".toList, by decide, by decide⟩
    exact hquick.trans (by decide)

end Tags
end PullPlan
