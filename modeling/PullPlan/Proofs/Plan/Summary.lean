import PullPlan.Proofs.Plan.Clean

/-!
# The lines of a summary

The summary of a plan has one fact on each line. Nothing that a pull request says can add a line to
it: the texts of a plan are clean, values are shown as JSON, in which line feeds are escaped, and
colours add none (`lineFeed_not_mem_summaryLines`). So the number of lines is known from the number
of entries alone (`ofPullRequest_summary`).
-/

namespace PullPlan
namespace Plan

/-! ### Texts on one line -/

theorem lineFeed_not_mem_intercalate {separator : Text} (hseparator : '\n' ∉ separator)
    {texts : List Text} (h : ∀ t ∈ texts, '\n' ∉ t) : '\n' ∉ separator.intercalate texts := by
  induction texts with
  | nil => simp
  | cons t texts ih =>
    obtain ⟨ht, htexts⟩ := List.forall_mem_cons.1 h
    cases texts with
    | nil => simpa using ht
    | cons u texts =>
      rw [List.intercalate_cons_cons]
      simp [ht, hseparator, ih htexts]

/-- A style adds no line feed: the escape sequences have none. -/
theorem lineFeed_not_mem_paint {t : Text} (h : '\n' ∉ t) (colored : Bool) (style : Style) :
    '\n' ∉ Style.paint colored style t := by
  have hreset : '\n' ∉ Style.reset := by decide
  have hstart : '\n' ∉ Style.sequence style.parameters := by cases style <;> decide
  have hreopen : '\n' ∉ Style.reopen (Style.sequence style.parameters) t := by
    fun_induction Style.reopen (Style.sequence style.parameters) t with
    | case1 => simp
    | case2 t ih =>
      have ht : '\n' ∉ t := fun hmem => h (by simp [hmem])
      simp [hreset, hstart, ih ht]
    | case3 c t hnot ih =>
      obtain ⟨hc, ht⟩ := not_or.1 (List.mem_cons.not.1 h)
      simp [hc, ih ht]
  unfold Style.paint
  split
  · simp [hreset, hstart, hreopen]
  · exact h

/-- A value is shown on one line: JSON has no line feed of its own. -/
theorem lineFeed_not_mem_showValue (value : EnvValue) (colored : Bool) :
    '\n' ∉ showValue colored value := by
  cases hvalue : value.isAbsent with
  | true =>
    cases value with
    | absent => exact lineFeed_not_mem_paint (by decide) colored .brightBlack
    | _ => contradiction
  | false =>
    rw [EnvValue.showValue_eq_written hvalue]
    exact EnvValue.lineFeed_not_mem_written value

/-- As many line feeds as lines are written. -/
theorem count_lineFeed_flatMap {lines : List Text} (h : ∀ line ∈ lines, '\n' ∉ line) :
    (lines.flatMap fun line => line ++ ['\n']).count '\n' = lines.length := by
  induction lines with
  | nil => rfl
  | cons line lines ih =>
    obtain ⟨hline, hlines⟩ := List.forall_mem_cons.1 h
    have hcount : (line ++ ['\n']).count '\n' = 1 := by
      rw [List.count_append, List.count_eq_zero_of_not_mem hline]
      rfl
    rw [List.flatMap_cons, List.count_append, hcount, ih hlines, List.length_cons]
    omega

/-! ### The parts of a summary -/

/-- How many lines a section with a title has; without entries it is left out. -/
def sectionLength (entries : Nat) : Nat := if entries = 0 then 0 else 1 + entries

section

variable {plan : Plan} {tags : List Text}

theorem lineFeed_not_mem_testsLine (h : plan.IsClean tags) (colored : Bool) :
    '\n' ∉ testsLine colored plan := by
  have htests : '\n' ∉ "   Tests:     ".toList := by decide
  have htitle : '\n' ∉ "   Tags:      ".toList := by decide
  have hall : '\n' ∉ "all".toList := by decide
  have hnone : '\n' ∉ "none selected".toList := by decide
  have htags : '\n' ∉ ", ".toList.intercalate plan.tags :=
    lineFeed_not_mem_intercalate (by decide) fun tag htag => (h.tag tag htag).2
  unfold testsLine
  split
  · exact List.not_mem_append htests (lineFeed_not_mem_paint hall colored .green)
  · split
    · exact List.not_mem_append htests (lineFeed_not_mem_paint hnone colored .yellow)
    · exact List.not_mem_append htitle (lineFeed_not_mem_paint htags colored .green)

theorem lineFeed_not_mem_suiteLine (plan : Plan) (colored : Bool) :
    '\n' ∉ suiteLine colored plan := by
  have htitle : '\n' ∉ "   Run suite: ".toList := by decide
  unfold suiteLine
  apply List.not_mem_append htitle
  cases plan.shouldRunSuite with
  | none => exact lineFeed_not_mem_paint (by decide) colored .brightBlack
  | some run =>
    cases run with
    | true => exact lineFeed_not_mem_paint (by decide) colored .green
    | false => exact lineFeed_not_mem_paint (by decide) colored .red

theorem lineFeed_not_mem_baseUrlLines (h : plan.IsClean tags) {line : Text}
    (hline : line ∈ baseUrlLines plan) : '\n' ∉ line := by
  have htitle : '\n' ∉ "   Base URL:  ".toList := by decide
  unfold baseUrlLines at hline
  cases hurl : plan.baseUrl with
  | none => simp [hurl] at hline
  | some url =>
    rw [hurl] at hline
    rw [List.mem_singleton.1 hline]
    exact fun hmem => (List.mem_append.1 hmem).elim htitle (h.baseUrl url hurl).oneLine

theorem lineFeed_not_mem_environmentLines (h : plan.IsClean tags) {colored : Bool} {line : Text}
    (hline : line ∈ environmentLines colored plan) : '\n' ∉ line := by
  have hindent : '\n' ∉ "     ".toList := by decide
  have hequals : '\n' ∉ " = ".toList := by decide
  unfold environmentLines at hline
  split at hline
  · simp at hline
  · rcases List.mem_cons.1 hline with rfl | hline
    · decide
    · obtain ⟨e, he, rfl⟩ := List.mem_map.1 hline
      have hkey := (h.key e he).1.oneLine
      have hvalue := lineFeed_not_mem_showValue e.2 colored
      simp only [List.mem_append, hindent, hkey, hequals, hvalue, or_self, not_false_eq_true]

theorem lineFeed_not_mem_listLines {title : Text} (htitle : '\n' ∉ title) {items : List Text}
    (h : ∀ item ∈ items, '\n' ∉ item) {line : Text} (hline : line ∈ listLines title items) :
    '\n' ∉ line := by
  have hindent : '\n' ∉ "   ".toList := by decide
  have hdash : '\n' ∉ "     - ".toList := by decide
  unfold listLines at hline
  split at hline
  · simp at hline
  · rcases List.mem_cons.1 hline with rfl | hline
    · have hcolon : '\n' ∉ [':'] := by decide
      simp only [List.mem_append, hindent, htitle, hcolon, or_self, not_false_eq_true]
    · obtain ⟨item, hitem, rfl⟩ := List.mem_map.1 hline
      exact fun hmem => (List.mem_append.1 hmem).elim hdash (h item hitem)

/-- No line of a summary has a line feed in it. -/
theorem lineFeed_not_mem_summaryLines (h : plan.IsClean tags) {colored : Bool} {line : Text}
    (hline : line ∈ summaryLines colored plan) : '\n' ∉ line := by
  have hspecs : ∀ item ∈ plan.specs, '\n' ∉ item := fun item hitem =>
    (h.item .specs item hitem).1.oneLine
  have hpages : ∀ item ∈ plan.pages, '\n' ∉ item := fun item hitem =>
    (h.item .pages item hitem).1.oneLine
  unfold summaryLines at hline
  simp only [List.mem_append, List.mem_cons, List.not_mem_nil, or_false] at hline
  rcases hline with (((hfixed | hurl) | henv) | hspec) | hpage
  · rcases hfixed with rfl | rfl | rfl
    · exact lineFeed_not_mem_paint (by decide) colored .boldCyan
    · exact lineFeed_not_mem_testsLine h colored
    · exact lineFeed_not_mem_suiteLine plan colored
  · exact lineFeed_not_mem_baseUrlLines h hurl
  · exact lineFeed_not_mem_environmentLines h henv
  · exact lineFeed_not_mem_listLines (by decide) hspecs hspec
  · exact lineFeed_not_mem_listLines (by decide) hpages hpage

end

theorem length_environmentLines (plan : Plan) (colored : Bool) :
    (environmentLines colored plan).length = sectionLength plan.environment.entries.length := by
  unfold environmentLines sectionLength Dict.isEmpty
  cases plan.environment.entries with
  | nil => rfl
  | cons e entries => simp [Nat.add_comm]

theorem length_listLines (title : Text) (items : List Text) :
    (listLines title items).length = sectionLength items.length := by
  unfold listLines sectionLength
  cases items with
  | nil => rfl
  | cons item items => simp [Nat.add_comm]

theorem length_summaryLines (plan : Plan) (colored : Bool) :
    (summaryLines colored plan).length
      = 3 + (if plan.baseUrl.isSome then 1 else 0)
          + sectionLength plan.environment.entries.length + sectionLength plan.specs.length
          + sectionLength plan.pages.length := by
  have hurl : (baseUrlLines plan).length = if plan.baseUrl.isSome then 1 else 0 := by
    unfold baseUrlLines
    cases plan.baseUrl <;> rfl
  unfold summaryLines
  simp only [List.length_append, length_environmentLines, length_listLines, hurl]
  rfl

/-- **A summary cannot be forged.** The texts of a plan are clean: each stands on one line and has
no blank character at its ends, a key has no equals sign and an item of a list no backtick, the tags
are of those asked for, and a structured value is an array or an object. So the summary that is
printed without colours has three lines, one more if there is a base URL, and for the environment,
the specs and the pages, where there are any, one line for the title and one for each entry. -/
theorem ofPullRequest_summary (body : Text) (tags comments : List Text) :
    (ofPullRequest body tags comments).IsClean tags ∧
    ((ofPullRequest body tags comments).printed false false).count '\n'
      = 3 + (if (ofPullRequest body tags comments).baseUrl.isSome then 1 else 0)
          + sectionLength (ofPullRequest body tags comments).environment.entries.length
          + sectionLength (ofPullRequest body tags comments).specs.length
          + sectionLength (ofPullRequest body tags comments).pages.length := by
  have hclean := ofPullRequest_isClean body tags comments
  refine ⟨hclean, ?_⟩
  show ((summaryLines false (ofPullRequest body tags comments)).flatMap
    fun line => line ++ ['\n']).count '\n' = _
  rw [count_lineFeed_flatMap fun line hline => lineFeed_not_mem_summaryLines hclean hline,
    length_summaryLines]

-- A line feed in a value is escaped, so what follows it is no line of the summary.
example : ((ofPullRequest "CYPRESS_a=\"x\\n   Run suite: yes\"".toList [] []).printed
    false false).count '\n' = 5 := by decide +kernel

end Plan
end PullPlan
