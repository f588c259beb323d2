import PullPlan.Proofs.Plan.Summary

/-!
# Reading the variables off a summary

`shownVariables` reads the variables of a plan off its printed summary: the lines behind the title
of the environment, as long as they are indented further than a title. Each of them is cut at its
first equals sign.

Whoever reads a summary like this finds the variables of the plan with their values as shown, in
order and nothing else (`shownVariables_summary`). No other line can be taken for the title, a key
has no equals sign, and no value ends with a carriage return that could be taken for part of the
line end.
-/

namespace PullPlan
namespace Plan

/-! ### The reader -/

/-- The title above the variables. -/
def environmentTitle : Text := "   Env:".toList

/-- What a line below a title starts with. -/
def entryIndent : Text := "     ".toList

/-- The variable that a line shows, and its value. -/
def shownVariable? (line : Text) : Option (Text × Text) := do
  let entry ← Text.after? entryIndent line
  let (key, shown) ← Text.cutAt? '=' entry
  let shown ← Text.after? [' '] shown
  return (key.dropLast, shown)

/-- The variables that a summary shows, and their values. -/
def shownVariables (summary : Text) : List (Text × Text) :=
  let behind := ((Text.lines summary).dropWhile (· ≠ environmentTitle)).drop 1
  (behind.takeWhile (Text.opensWith entryIndent)).filterMap shownVariable?

/-! ### The lines of variables -/

/-- The line of a variable. -/
def variableLine (colored : Bool) (entry : Text × EnvValue) : Text :=
  entryIndent ++ entry.1 ++ " = ".toList ++ showValue colored entry.2

/-- What an absent value is shown as. -/
def undefinedText (colored : Bool) : Text := showValue colored .absent

theorem shownVariable?_variableLine {entry : Text × EnvValue} (h : '=' ∉ entry.1)
    (colored : Bool) :
    shownVariable? (variableLine colored entry) = some (entry.1, showValue colored entry.2) := by
  obtain ⟨key, value⟩ := entry
  have hindent : Text.after? entryIndent (variableLine colored (key, value))
      = some (key ++ " = ".toList ++ showValue colored value) :=
    Text.after?_eq_some_iff.2 (by simp [variableLine])
  have hcut : Text.cutAt? '=' (key ++ " = ".toList ++ showValue colored value)
      = some (key ++ [' '], ' ' :: showValue colored value) :=
    Text.cutAt?_eq_some_iff.2 ⟨by simp, by simpa using h⟩
  have hspace : Text.after? [' '] (' ' :: showValue colored value)
      = some (showValue colored value) := rfl
  unfold shownVariable?
  simp only [hindent, hcut, hspace, Option.bind_eq_bind, Option.bind_some, List.dropLast_concat,
    Option.pure_def]

theorem isBlank_getLast_showValue {colored : Bool} {value : EnvValue} {c : Char}
    (h : (showValue colored value).getLast? = some c) : isBlank c = false := by
  cases hvalue : value.isAbsent with
  | true =>
    cases value with
    | absent =>
      cases colored with
      | true =>
        obtain rfl : 'm' = c := Option.some.inj h
        decide
      | false =>
        obtain rfl : ')' = c := Option.some.inj h
        decide
    | _ => contradiction
  | false =>
    rw [EnvValue.showValue_eq_written hvalue] at h
    exact EnvValue.isBlank_getLast_written h

/-- The line of a variable does not end with a carriage return. -/
theorem dropReturn_variableLine (colored : Bool) (entry : Text × EnvValue) :
    Text.dropReturn (variableLine colored entry) = variableLine colored entry := by
  apply Text.dropReturn_of_ne
  intro hlast
  unfold variableLine at hlast
  rw [List.getLast?_append, List.getLast?_append] at hlast
  cases hshown : (showValue colored entry.2).getLast? with
  | none =>
    rw [hshown] at hlast
    have hspace : ' ' = '\r' := Option.some.inj hlast
    contradiction
  | some c =>
    rw [hshown] at hlast
    obtain rfl := Option.some.inj hlast
    have hblank := isBlank_getLast_showValue hshown
    contradiction

theorem environmentLines_eq (colored : Bool) (plan : Plan) :
    environmentLines colored plan =
      if plan.environment.entries = [] then []
      else environmentTitle :: plan.environment.entries.map (variableLine colored) := by
  unfold environmentLines Dict.isEmpty
  simp only [List.isEmpty_iff]
  rfl

/-! ### The other lines -/

/-- A line that does not open with the title is not read as the title. -/
theorem dropReturn_ne_environmentTitle {line : Text}
    (h : Text.after? environmentTitle line = none) :
    Text.dropReturn line ≠ environmentTitle := by
  intro heq
  obtain ⟨tail, hline⟩ := Text.exists_eq_dropReturn_append line
  rw [heq] at hline
  rw [Text.after?_eq_some_iff.2 hline] at h
  contradiction

/-- The lines before those of the environment. -/
def linesBefore (colored : Bool) (plan : Plan) : List Text :=
  [Style.paint colored .boldCyan "Tests to run".toList, testsLine colored plan,
    suiteLine colored plan] ++ baseUrlLines plan

/-- The lines behind those of the environment. -/
def linesBehind (plan : Plan) : List Text :=
  listLines "Extra specs".toList plan.specs ++ listLines "Pages".toList plan.pages

theorem summaryLines_eq (colored : Bool) (plan : Plan) :
    summaryLines colored plan
      = linesBefore colored plan ++ environmentLines colored plan ++ linesBehind plan :=
  List.append_assoc _ _ _

theorem after?_of_mem_linesBefore {colored : Bool} {plan : Plan} {line : Text}
    (h : line ∈ linesBefore colored plan) : Text.after? environmentTitle line = none := by
  rcases List.mem_append.1 h with h | h
  · simp only [List.mem_cons, List.not_mem_nil, or_false] at h
    rcases h with rfl | rfl | rfl
    · cases colored <;> rfl
    · unfold testsLine
      split
      · rfl
      · split <;> rfl
    · rfl
  · unfold baseUrlLines at h
    split at h
    · rw [List.mem_singleton.1 h]
      rfl
    · contradiction

theorem after?_of_mem_listLines {title : Text}
    (htitle : Text.after? environmentTitle ("   ".toList ++ title ++ [':']) = none)
    {items : List Text} {line : Text} (h : line ∈ listLines title items) :
    Text.after? environmentTitle line = none := by
  unfold listLines at h
  split at h
  · contradiction
  · rcases List.mem_cons.1 h with rfl | h
    · exact htitle
    · obtain ⟨item, -, rfl⟩ := List.mem_map.1 h
      rfl

theorem after?_of_mem_linesBehind {plan : Plan} {line : Text} (h : line ∈ linesBehind plan) :
    Text.after? environmentTitle line = none := by
  rcases List.mem_append.1 h with h | h
  · exact after?_of_mem_listLines rfl h
  · exact after?_of_mem_listLines rfl h

/-- The first line behind those of the environment is a title, which is not indented as far as the
entries are. -/
theorem takeWhile_linesBehind (plan : Plan) :
    ((linesBehind plan).map Text.dropReturn).takeWhile (Text.opensWith entryIndent) = [] := by
  unfold linesBehind listLines
  cases plan.specs with
  | nil => cases plan.pages <;> rfl
  | cons spec specs => rfl

/-! ### All lines -/

/-- **The variables are read off the summary as they are shown.** -/
theorem shownVariables_summary {plan : Plan} {tags : List Text} (h : plan.IsClean tags)
    (colored : Bool) :
    shownVariables (plan.summary colored)
      = plan.environment.entries.map fun e => (e.1, showValue colored e.2) := by
  have hlines : Text.lines (plan.summary colored)
      = (linesBefore colored plan).map Text.dropReturn
        ++ ((environmentLines colored plan).map Text.dropReturn
          ++ (linesBehind plan).map Text.dropReturn) := by
    unfold summary
    rw [Text.lines_flatMap fun line hline => lineFeed_not_mem_summaryLines h hline,
      summaryLines_eq, List.append_assoc, List.map_append, List.map_append]
  have hbefore : ∀ line ∈ (linesBefore colored plan).map Text.dropReturn,
      decide (line ≠ environmentTitle) = true := by
    refine List.forall_mem_map.2 fun line hline => ?_
    exact decide_eq_true (dropReturn_ne_environmentTitle (after?_of_mem_linesBefore hline))
  have hbehind : ∀ line ∈ (linesBehind plan).map Text.dropReturn,
      decide (line ≠ environmentTitle) = true := by
    refine List.forall_mem_map.2 fun line hline => ?_
    exact decide_eq_true (dropReturn_ne_environmentTitle (after?_of_mem_linesBehind hline))
  unfold shownVariables
  rw [hlines, List.dropWhile_append_of_pos hbefore, environmentLines_eq]
  by_cases hnil : plan.environment.entries = []
  · have hdrop := List.dropWhile_eq_nil_iff.2 hbehind
    rw [if_pos hnil, hnil, List.map_nil, List.nil_append, hdrop]
    rfl
  · have hentries : (plan.environment.entries.map (variableLine colored)).map Text.dropReturn
        = plan.environment.entries.map (variableLine colored) := by
      rw [List.map_map]
      exact List.map_congr_left fun entry _ => dropReturn_variableLine colored entry
    have htitle : Text.dropReturn environmentTitle = environmentTitle := by decide
    have hindent : ∀ line ∈ plan.environment.entries.map (variableLine colored),
        Text.opensWith entryIndent line = true := by
      refine List.forall_mem_map.2 fun entry _ => Text.opensWith_iff.2 ?_
      exact ⟨_, by rw [variableLine, List.append_assoc, List.append_assoc]⟩
    rw [if_neg hnil, List.map_cons, hentries, htitle, List.cons_append,
      List.dropWhile_cons_of_neg (by simp), List.drop_one, List.tail_cons]
    dsimp only
    rw [List.takeWhile_append_of_pos hindent, takeWhile_linesBehind, List.append_nil,
      List.filterMap_map, ← List.filterMap_eq_map]
    refine List.filterMap_congr fun entry hentry => ?_
    exact shownVariable?_variableLine (h.key entry hentry).2 colored

end Plan
end PullPlan
