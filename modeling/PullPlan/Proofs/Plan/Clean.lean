import PullPlan.Proofs.Plan.Append
import PullPlan.Proofs.Plan.RoundTrip

/-!
# The fields of a plan are clean

Whatever a pull request says, the texts of its plan stand on one line each and have no blank
characters at their ends (`ofPullRequest_isClean`). Each of them is cut out of one line, and a line
has no line feed; what trimming leaves has no blank character at its ends. A value in the
environment is no such text: a JSON string may well stand for a text with line feeds.
-/

namespace PullPlan

/-- A text that is not empty, stands on one line, and has no blank character at either end. -/
structure Text.IsClean (t : Text) : Prop where
  ne_nil : t ≠ []
  head : ∀ c, t.head? = some c → isBlank c = false
  last : ∀ c, t.getLast? = some c → isBlank c = false
  oneLine : '\n' ∉ t

theorem Text.IsSolid.isClean {t : Text} (h : t.IsSolid) (hline : '\n' ∉ t) : t.IsClean where
  ne_nil := h.ne_nil
  head := h.head
  last := h.last
  oneLine := hline

/-- What trimming leaves of a line is clean, if anything is left. -/
theorem Text.isClean_trim {t : Text} (hne : trim t ≠ []) (hline : '\n' ∉ t) : (trim t).IsClean :=
  (isSolid_trim hne).isClean fun h => hline (mem_of_mem_trim h)

/-! ### Directives -/

namespace Directive

theorem isClean_of_baseUrl? {line url : Text} (hline : '\n' ∉ line) (h : baseUrl? line = some url) :
    url.IsClean := by
  cases baseUrl?_eq_some_iff.1 h with
  | keyword hfront hgap hne hurl hbehind => exact hurl.isClean fun hmem => hline (by simp [hmem])
  | label hfront hgap hurl hbehind => exact hurl.isClean fun hmem => hline (by simp [hmem])

theorem IsVariable.isClean {key : Text} {value : EnvValue} (h : IsVariable key value) :
    key.IsClean := by
  have hne : Text.trim key ≠ [] := by
    rw [h.trim_eq]
    exact h.ne_nil
  have hclean := Text.isClean_trim hne h.lineFeed_not_mem
  rwa [h.trim_eq] at hclean

end Directive

/-! ### List blocks -/

namespace ListBlock

/-- Backticks go first, so the blank characters that stood inside them are trimmed off as well. -/
theorem isClean_of_bullet? {line content : Text} (hline : '\n' ∉ line)
    (h : bullet? line = some content) (hne : content ≠ []) :
    content.IsClean ∧ '\x60' ∉ content := by
  obtain ⟨rest, hrest, rfl⟩ := Option.map_eq_some_iff.1 h
  have hfeed : '\n' ∉ rest.filter (· ≠ '\x60') := by
    intro hmem
    have hmem' := List.mem_of_mem_filter hmem
    rw [Text.after?_eq_some_iff.1 hrest] at hline
    exact hline (List.mem_append_right _ hmem')
  refine ⟨Text.isClean_trim hne hfeed, fun hmem => ?_⟩
  have hkept := (List.mem_filter.1 (Text.mem_of_mem_trim hmem)).2
  simp at hkept

theorem item?_classify {line item : Text} (h : (classify line).item? = some item) :
    bullet? (Text.trim line) = some item ∧ item ≠ [] := by
  unfold classify at h
  dsimp only at h
  split at h
  · contradiction
  · split at h
    · rename_i content hbullet
      cases content with
      | nil => contradiction
      | cons c content =>
        obtain rfl := Option.some.inj h
        exact ⟨hbullet, List.cons_ne_nil c content⟩
    · split at h <;> contradiction

/-- Each item comes from one of the lines. -/
theorem exists_line_of_mem_itemsFrom {progress : Progress} {lines : List Text} {item : Text}
    (h : item ∈ itemsFrom progress lines) : ∃ line ∈ lines, (classify line).item? = some item := by
  induction lines generalizing progress with
  | nil => simp [itemsFrom, collect] at h
  | cons line lines ih =>
    rw [collect_cons, List.mem_append] at h
    rcases h with h | h
    · exact ⟨line, List.mem_cons_self, Option.mem_toList.1 h⟩
    · cases hnext : progress.next? (classify line) with
      | none => simp [hnext, itemsFrom?] at h
      | some progress' =>
        rw [hnext] at h
        obtain ⟨line', hline', hitem⟩ := ih h
        exact ⟨line', List.mem_cons_of_mem line hline', hitem⟩

theorem isClean_of_mem_items {marker text item : Text} (h : item ∈ items marker text) :
    item.IsClean ∧ '\x60' ∉ item := by
  rw [items_eq] at h
  obtain ⟨line, hline, hitem⟩ := exists_line_of_mem_itemsFrom h
  obtain ⟨hbullet, hne⟩ := item?_classify hitem
  have hmem : line ∈ Text.lines text :=
    (List.dropWhile_sublist _).subset ((List.drop_sublist 1 _).subset hline)
  have hfeed : '\n' ∉ Text.trim line := fun hc =>
    Text.lineFeed_not_mem_of_mem_lines hmem (Text.mem_of_mem_trim hc)
  exact isClean_of_bullet? hfeed hbullet hne

end ListBlock

/-! ### Tags -/

/-- A tag is found where it is asked for and stands on a line. -/
theorem Tags.mem_scan_tags {text tag : Text} {tags : List Text} (h : tag ∈ (scan text tags).tags) :
    tag ∈ tags ∧ '\n' ∉ tag := by
  unfold scan at h
  split at h
  · simp at h
  · obtain ⟨line, hline, htag⟩ := List.mem_flatMap.1 h
    obtain ⟨hmem, hmentions⟩ := List.mem_filter.1 htag
    have hfeed := Text.lineFeed_not_mem_of_mem_lines (List.mem_of_mem_filter hline)
    exact ⟨hmem, fun hc => hfeed (ListBlock.mem_of_mentions hmentions hc)⟩

/-! ### Plans -/

namespace Plan

open ListBlock

/-- The texts of a plan are clean, its tags are of those asked for, and its structured values are
arrays and objects. -/
structure IsClean (plan : Plan) (tags : List Text) : Prop where
  baseUrl : ∀ url, plan.baseUrl = some url → url.IsClean
  key : ∀ e ∈ plan.environment.entries, e.1.IsClean ∧ '=' ∉ e.1
  structured : ∀ e ∈ plan.environment.entries, ∀ v, e.2 = .structured v → v.isContainer = true
  item : ∀ kind, ∀ item ∈ plan.listed kind, item.IsClean ∧ '\x60' ∉ item
  tag : ∀ tag ∈ plan.tags, tag ∈ tags ∧ '\n' ∉ tag

theorem ofPullRequest_isClean (body : Text) (tags comments : List Text) :
    (ofPullRequest body tags comments).IsClean tags where
  baseUrl := by
    intro url h
    rw [ofPullRequest_baseUrl] at h
    obtain ⟨line, hline, hurl⟩ := List.mem_filterMap.1 (List.mem_of_getLast? h)
    obtain ⟨text, -, hmem⟩ := List.mem_flatMap.1 hline
    exact Directive.isClean_of_baseUrl? (Text.lineFeed_not_mem_of_mem_lines hmem) hurl
  key := by
    intro e he
    have hvariable := isVariable_of_mem_environment he
    exact ⟨hvariable.isClean, hvariable.equals_not_mem⟩
  structured := by
    intro e he v hv
    have hread := (isVariable_of_mem_environment he).isRead
    rw [hv] at hread
    exact hread.1
  item := by
    intro kind item hitem
    rw [ofPullRequest_listed] at hitem
    exact isClean_of_mem_items hitem
  tag := by
    intro tag htag
    rw [(ofPullRequest_selection body tags comments).2] at htag
    exact Tags.mem_scan_tags htag

end Plan
end PullPlan
