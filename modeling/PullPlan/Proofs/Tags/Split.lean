import PullPlan.Proofs.Plan.Clean
import PullPlan.Settings

/-!
# Tag lists are read back

A list of tags may be written with any mixture of commas and blank characters between the tags and
around them; `Tags.Lists` says what such a text is. Splitting it gives the tags back, and each text
is such a list of just the tags that it is split into (`split_eq_iff`).

A tag that comes out of a split has no separator left in it, so joining tags with commas for the
grep filter loses nothing: the filter of a plan whose tags were asked for in this way can be taken
apart again (`Plan.grepTags?_read_back`), although a scan has left out and repeated tags in between.

Most of it rests on one equation, `split_append_separator`: a separator parts what is split before
it from what is split behind it.
-/

namespace PullPlan
namespace Tags

/-! ### Tag lists as they are written -/

/-- A tag as it stands in a list: not empty, and without a comma or a blank character. -/
structure IsTag (tag : Text) : Prop where
  ne_nil : tag ≠ []
  no_separator : ∀ c ∈ tag, isSeparator c = false

/-- What may stand between two tags and around them: commas and blank characters. -/
def IsGap (t : Text) : Prop := ∀ c ∈ t, isSeparator c = true

/-- Whether a text lists some tags in order. The gap between two tags is not empty. -/
inductive Lists : Text → List Text → Prop
  | gap {gap : Text} (hgap : IsGap gap) : Lists gap []
  | last {front tag behind : Text} (hfront : IsGap front) (htag : IsTag tag)
      (hbehind : IsGap behind) : Lists (front ++ tag ++ behind) [tag]
  | more {front tag gap rest : Text} {tags : List Text} (hfront : IsGap front) (htag : IsTag tag)
      (hne : gap ≠ []) (hgap : IsGap gap) (hrest : Lists rest tags) :
      Lists (front ++ tag ++ gap ++ rest) (tag :: tags)

/-! ### Splitting -/

theorem pieces_ne_nil (t : Text) : pieces t ≠ [] := by
  induction t with
  | nil => exact List.cons_ne_nil _ _
  | cons c t ih =>
    rw [pieces]
    split
    · exact List.cons_ne_nil _ _
    · split <;> exact List.cons_ne_nil _ _

theorem pieces_append_separator {c : Char} (hc : isSeparator c = true) (front back : Text) :
    pieces (front ++ c :: back) = pieces front ++ pieces back := by
  induction front with
  | nil =>
    show pieces (c :: back) = [] :: pieces back
    rw [pieces, if_pos hc]
  | cons d front ih =>
    rw [List.cons_append, pieces, pieces, ih]
    split
    · rfl
    · -- The character joins the first piece, and that comes from the front.
      obtain ⟨piece, more, hpieces⟩ := List.exists_cons_of_ne_nil (pieces_ne_nil front)
      rw [hpieces]
      rfl

theorem split_append_separator {c : Char} (hc : isSeparator c = true) (front back : Text) :
    split (front ++ c :: back) = split front ++ split back := by
  unfold split
  rw [pieces_append_separator hc, List.filter_append]

theorem pieces_of_no_separator {t : Text} (h : ∀ c ∈ t, isSeparator c = false) :
    pieces t = [t] := by
  induction t with
  | nil => rfl
  | cons c t ih =>
    obtain ⟨hc, ht⟩ := List.forall_mem_cons.1 h
    rw [pieces, ih ht, if_neg (by simp [hc])]

theorem split_tag {tag : Text} (h : IsTag tag) : split tag = [tag] := by
  unfold split
  rw [pieces_of_no_separator h.no_separator]
  simpa using h.ne_nil

theorem split_gap_append {gap : Text} (h : IsGap gap) (t : Text) : split (gap ++ t) = split t := by
  induction gap with
  | nil => rfl
  | cons c gap ih =>
    obtain ⟨hc, hgap⟩ := List.forall_mem_cons.1 h
    have hfront : split ([] ++ c :: (gap ++ t)) = split [] ++ split (gap ++ t) :=
      split_append_separator hc [] (gap ++ t)
    rw [List.cons_append, ← List.nil_append (c :: (gap ++ t)), hfront, ih hgap]
    rfl

theorem split_gap {gap : Text} (h : IsGap gap) : split gap = [] := by
  rw [← List.append_nil gap, split_gap_append h]
  rfl

/-- A gap parts the tags before it from those behind it. -/
theorem split_append_gap_append {gap : Text} (hne : gap ≠ []) (h : IsGap gap) (front back : Text) :
    split (front ++ gap ++ back) = split front ++ split back := by
  obtain ⟨c, gap, rfl⟩ := List.exists_cons_of_ne_nil hne
  obtain ⟨hc, hgap⟩ := List.forall_mem_cons.1 h
  rw [List.append_assoc, List.cons_append, split_append_separator hc, split_gap_append hgap]

theorem split_of_lists {raw : Text} {tags : List Text} (h : Lists raw tags) : split raw = tags := by
  induction h with
  | gap hgap => exact split_gap hgap
  | @last front tag behind hfront htag hbehind =>
    rw [List.append_assoc, split_gap_append hfront]
    by_cases hne : behind = []
    · rw [hne, List.append_nil, split_tag htag]
    · rw [← List.append_nil (tag ++ behind), split_append_gap_append hne hbehind, split_tag htag]
      rfl
  | @more front tag gap rest tags hfront htag hne hgap _ ih =>
    rw [List.append_assoc, List.append_assoc, split_gap_append hfront, ← List.append_assoc,
      split_append_gap_append hne hgap, split_tag htag, ih]
    rfl

/-! ### Every text is a list -/

/-- A separator in front of a list belongs to its first gap. -/
theorem Lists.cons {raw : Text} {tags : List Text} (h : Lists raw tags) {c : Char}
    (hc : isSeparator c = true) : Lists (c :: raw) tags := by
  cases h with
  | gap hgap => exact .gap (List.forall_mem_cons.2 ⟨hc, hgap⟩)
  | last hfront htag hbehind => exact .last (List.forall_mem_cons.2 ⟨hc, hfront⟩) htag hbehind
  | more hfront htag hne hgap hrest =>
    exact .more (List.forall_mem_cons.2 ⟨hc, hfront⟩) htag hne hgap hrest

/-- Every text lists the tags that it is split into. -/
theorem lists_split_append {word : Text} (h : ∀ c ∈ word, isSeparator c = false) (t : Text) :
    Lists (word ++ t) (split (word ++ t)) := by
  -- Induction on what is still to be read; `word` is the part of a tag that has been read.
  induction t generalizing word with
  | nil =>
    rw [List.append_nil]
    by_cases hne : word = []
    · subst hne
      exact .gap (List.forall_mem_nil _)
    · have hlast : Lists ([] ++ word ++ []) [word] :=
        .last (List.forall_mem_nil _) ⟨hne, h⟩ (List.forall_mem_nil _)
      rw [split_tag ⟨hne, h⟩]
      simpa using hlast
  | cons c t ih =>
    cases hc : isSeparator c with
    | true =>
      have hrest : Lists t (split t) := ih (List.forall_mem_nil _)
      rw [split_append_separator hc]
      by_cases hne : word = []
      · subst hne
        exact hrest.cons hc
      · have hmore : Lists ([] ++ word ++ [c] ++ t) (word :: split t) :=
          .more (List.forall_mem_nil _) ⟨hne, h⟩ (List.cons_ne_nil c [])
            (List.forall_mem_singleton.2 hc) hrest
        rw [split_tag ⟨hne, h⟩]
        simpa using hmore
    | false =>
      have hword : ∀ d ∈ word ++ [c], isSeparator d = false :=
        List.forall_mem_append.2 ⟨h, List.forall_mem_singleton.2 hc⟩
      rw [List.append_cons]
      exact ih hword

theorem lists_split (raw : Text) : Lists raw (split raw) :=
  lists_split_append (List.forall_mem_nil _) raw

theorem split_eq_iff {raw : Text} {tags : List Text} : split raw = tags ↔ Lists raw tags := by
  constructor
  · rintro rfl
    exact lists_split raw
  · exact split_of_lists

theorem Lists.isTag {raw : Text} {tags : List Text} (h : Lists raw tags) :
    ∀ tag ∈ tags, IsTag tag := by
  induction h with
  | gap _ => exact List.forall_mem_nil _
  | last _ htag _ => exact List.forall_mem_singleton.2 htag
  | more _ htag _ _ _ ih => exact List.forall_mem_cons.2 ⟨htag, ih⟩

theorem isTag_of_mem_split {raw tag : Text} (h : tag ∈ split raw) : IsTag tag :=
  (lists_split raw).isTag tag h

/-! ### Joining -/

/-- Tags with commas between them are a list of these tags. -/
theorem lists_intercalate {tags : List Text} (h : ∀ tag ∈ tags, IsTag tag) :
    Lists ([','].intercalate tags) tags := by
  have hgap : IsGap [','] := List.forall_mem_singleton.2 (by decide)
  induction tags with
  | nil => exact .gap (List.forall_mem_nil _)
  | cons tag tags ih =>
    obtain ⟨htag, htags⟩ := List.forall_mem_cons.1 h
    cases tags with
    | nil =>
      have hlast : Lists ([] ++ tag ++ []) [tag] :=
        .last (List.forall_mem_nil _) htag (List.forall_mem_nil _)
      simpa using hlast
    | cons next tags =>
      have hmore : Lists ([] ++ tag ++ [','] ++ [','].intercalate (next :: tags))
          (tag :: next :: tags) :=
        .more (List.forall_mem_nil _) htag (List.cons_ne_nil _ _) hgap (ih htags)
      rw [List.intercalate_cons_cons]
      simpa using hmore

theorem comma_not_mem {tag : Text} (h : IsTag tag) : ',' ∉ tag := by
  intro hmem
  exact absurd (h.no_separator ',' hmem) (by decide)

theorem join?_eq_none_iff {tags : List Text} : join? tags = none ↔ tags = [] := by
  unfold join?
  cases tags <;> simp

theorem join?_of_ne_nil {tags : List Text} (h : tags ≠ []) :
    join? tags = some ([','].intercalate tags) := by
  unfold join?
  rw [if_neg (by simpa using h)]

end Tags

namespace Plan

open Tags

/-- **Tag lists survive splitting and joining.** A text is split into some tags exactly if it lists
them in this order, with any commas and blank characters between them and around them; what it is
split into are texts that are not empty and have no such character. So let the tags to look for come
from such a text, whatever the settings are. The plan of a pull request has no grep filter exactly
if no tag is checked, and otherwise taking its filter apart, at the commas alone or as a list of
tags, gives the tags that are checked, in order and with their repetitions. -/
theorem grepTags?_read_back (raw : Text) :
    (∀ tags, split raw = tags ↔ Lists raw tags) ∧
    (∀ tag ∈ split raw, IsTag tag) ∧
    ∀ (settings : Settings) (body : Text) (comments : List Text),
      ((ofPullRequest body (settings.tagsOr (some raw)) comments).grepTags? = none
        ↔ (ofPullRequest body (settings.tagsOr (some raw)) comments).tags = []) ∧
      ((ofPullRequest body (settings.tagsOr (some raw)) comments).tags ≠ [] →
        ∃ joined,
          (ofPullRequest body (settings.tagsOr (some raw)) comments).grepTags? = some joined ∧
          joined.splitOn ',' = (ofPullRequest body (settings.tagsOr (some raw)) comments).tags ∧
          split joined = (ofPullRequest body (settings.tagsOr (some raw)) comments).tags) := by
  refine ⟨fun tags => split_eq_iff, fun tag => isTag_of_mem_split, ?_⟩
  intro settings body comments
  refine ⟨join?_eq_none_iff, ?_⟩
  intro hne
  -- What a scan finds was asked for, so it is a tag of the split.
  have htag : ∀ tag ∈ (ofPullRequest body (settings.tagsOr (some raw)) comments).tags,
      IsTag tag := by
    intro tag hmem
    rw [(ofPullRequest_selection body _ comments).2] at hmem
    exact isTag_of_mem_split (mem_scan_tags hmem).1
  refine ⟨_, join?_of_ne_nil hne, ?_, split_of_lists (lists_intercalate htag)⟩
  exact List.splitOn_intercalate ',' (fun tag hmem => comma_not_mem (htag tag hmem)) hne

/-- A list with a blank line, a no-break space and doubled commas in it. -/
def looseTags : Text := " ,@log\n\n@sanity\xa0,,@log".toList

/-- The filter names a tag once for each time that it is asked for and for each line. -/
theorem grepTags?_read_back_looseTags :
    split looseTags = ["@log".toList, "@sanity".toList, "@log".toList] ∧
    ∃ joined,
      (ofPullRequest "- [x] @log @sanity\n- [x] @sanity".toList
        (Settings.default.tagsOr (some looseTags)) []).grepTags? = some joined ∧
      joined.splitOn ','
        = ["@log".toList, "@sanity".toList, "@log".toList, "@sanity".toList] := by
  obtain ⟨hsplit, -, hplan⟩ := grepTags?_read_back looseTags
  have hlists : Lists looseTags ["@log".toList, "@sanity".toList, "@log".toList] := by
    have hgap : ∀ gap : Text, (gap.all isSeparator) = true → IsGap gap :=
      fun gap h => List.all_eq_true.1 h
    have htag : ∀ tag : Text, tag ≠ [] → (tag.all (! isSeparator ·)) = true → IsTag tag :=
      fun tag hne h => ⟨hne, fun c hc => by simpa using List.all_eq_true.1 h c hc⟩
    have hlog := htag "@log".toList (by decide) (by decide)
    have hsanity := htag "@sanity".toList (by decide) (by decide)
    exact .more (hgap " ,".toList (by decide)) hlog (by decide) (hgap "\n\n".toList (by decide))
      (.more (hgap [] rfl) hsanity (by decide) (hgap "\xa0,,".toList (by decide))
        (.last (hgap [] rfl) hlog (hgap [] rfl)))
  have htags : (ofPullRequest "- [x] @log @sanity\n- [x] @sanity".toList
      (Settings.default.tagsOr (some looseTags)) []).tags
      = ["@log".toList, "@sanity".toList, "@log".toList, "@sanity".toList] := by decide +kernel
  obtain ⟨joined, hjoined, hcommas, -⟩ := (hplan Settings.default _ []).2
    (by rw [htags]; exact List.cons_ne_nil _ _)
  exact ⟨(hsplit _).2 hlists, joined, hjoined, hcommas.trans htags⟩

end Plan
end PullPlan
