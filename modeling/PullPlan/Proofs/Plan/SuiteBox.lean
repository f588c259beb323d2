import PullPlan.Proofs.Plan.LastWrite

/-!
# The box that asks for the suite

A line has the box if one of four phrases stands in it, in letters of any case; if a phrase of the
checked box does, it counts as checked, also where one of the unchecked box stands in the same line.
`Directive.runSuite?_cases` says that this is what is read off a line, and the statements about
`Plan.shouldRunSuite` say that the last line with the box decides for the plan.
-/

namespace PullPlan

/-! ### The box on a line -/

namespace Directive

/-- A phrase in small letters stands in a line, in letters of any case. -/
def Says (phrase line : Text) : Prop :=
  ∃ front said behind, line = front ++ said ++ behind ∧ Text.toLowerAscii said = phrase

/-- A line has the box that asks for the suite, and it is checked. -/
def IsChecked (line : Text) : Prop :=
  Says "[x] run cypress tests".toList line ∨ Says "[x] run e2e tests".toList line

/-- A line has that box, and it is not checked. -/
def IsUnchecked (line : Text) : Prop :=
  ¬ IsChecked line ∧
    (Says "[ ] run cypress tests".toList line ∨ Says "[ ] run e2e tests".toList line)

/-- A line has that box. -/
def HasBox (line : Text) : Prop := IsChecked line ∨ IsUnchecked line

theorem mentions_toLowerAscii_iff {phrase line : Text} :
    Text.mentions phrase (Text.toLowerAscii line) = true ↔ Says phrase line := by
  rw [Text.mentions_iff]
  constructor
  · rintro ⟨before, behind, hline⟩
    obtain ⟨rest, back, rfl, hrest, rfl⟩ := List.map_eq_append_iff.1 hline
    obtain ⟨front, said, rfl, rfl, hsaid⟩ := List.map_eq_append_iff.1 hrest
    exact ⟨front, said, back, rfl, hsaid⟩
  · rintro ⟨front, said, behind, rfl, rfl⟩
    exact ⟨Text.toLowerAscii front, Text.toLowerAscii behind, by simp [Text.toLowerAscii]⟩

theorem checkedPhrases_iff {line : Text} :
    (checkedPhrases.any fun phrase => Text.mentions phrase (Text.toLowerAscii line)) = true ↔
      IsChecked line := by
  simp only [checkedPhrases, List.any_cons, List.any_nil, Bool.or_false, Bool.or_eq_true,
    mentions_toLowerAscii_iff, IsChecked]

theorem uncheckedPhrases_iff {line : Text} :
    (uncheckedPhrases.any fun phrase => Text.mentions phrase (Text.toLowerAscii line)) = true ↔
      Says "[ ] run cypress tests".toList line ∨ Says "[ ] run e2e tests".toList line := by
  simp only [uncheckedPhrases, List.any_cons, List.any_nil, Bool.or_false, Bool.or_eq_true,
    mentions_toLowerAscii_iff]

/-- What is read off a line. -/
theorem runSuite?_cases (line : Text) :
    (runSuite? line = some true ∧ IsChecked line)
      ∨ (runSuite? line = some false ∧ IsUnchecked line)
      ∨ (runSuite? line = none ∧ ¬ HasBox line) := by
  rw [runSuite?]
  split
  · next h => exact .inl ⟨rfl, checkedPhrases_iff.1 h⟩
  · next h =>
    have hnot : ¬ IsChecked line := fun hchecked => h (checkedPhrases_iff.2 hchecked)
    split
    · next h' => exact .inr (.inl ⟨rfl, hnot, uncheckedPhrases_iff.1 h'⟩)
    · next h' =>
      refine .inr (.inr ⟨rfl, ?_⟩)
      rintro (hchecked | hunchecked)
      · exact hnot hchecked
      · exact h' (uncheckedPhrases_iff.2 hunchecked.2)

theorem runSuite?_eq_true_iff {line : Text} : runSuite? line = some true ↔ IsChecked line := by
  obtain ⟨h, hbox⟩ | ⟨h, hbox⟩ | ⟨h, hbox⟩ := runSuite?_cases line
  · simp [h, hbox]
  · simp [h, hbox.1]
  · rw [HasBox, not_or] at hbox
    simp [h, hbox.1]

theorem runSuite?_eq_false_iff {line : Text} : runSuite? line = some false ↔ IsUnchecked line := by
  obtain ⟨h, hbox⟩ | ⟨h, hbox⟩ | ⟨h, hbox⟩ := runSuite?_cases line
  · simp [h, IsUnchecked, hbox]
  · simp [h, hbox]
  · rw [HasBox, not_or] at hbox
    simp [h, hbox.2]

theorem runSuite?_eq_none_iff {line : Text} : runSuite? line = none ↔ ¬ HasBox line := by
  obtain ⟨h, hbox⟩ | ⟨h, hbox⟩ | ⟨h, hbox⟩ := runSuite?_cases line
  · simp [h, HasBox, hbox]
  · simp [h, HasBox, hbox]
  · simp [h, hbox]

end Directive

/-! ### The last box of a body -/

/-- What the last item with a value gives. -/
theorem getLast?_filterMap_eq_some_iff {α β : Type} {f : α → Option β} {items : List α} {b : β} :
    (items.filterMap f).getLast? = some b ↔
      ∃ front a behind, items = front ++ a :: behind ∧ f a = some b ∧ ∀ c ∈ behind, f c = none := by
  rw [List.getLast?_eq_some_iff]
  constructor
  · rintro ⟨values, hvalues⟩
    obtain ⟨front, rest, rfl, -, hrest⟩ := List.filterMap_eq_append_iff.1 hvalues
    obtain ⟨skipped, a, behind, rfl, -, ha, hbehind⟩ := List.filterMap_eq_cons_iff.1 hrest
    refine ⟨front ++ skipped, a, behind, by simp, ha, ?_⟩
    exact List.filterMap_eq_nil_iff.1 hbehind
  · rintro ⟨front, a, behind, rfl, ha, hbehind⟩
    refine ⟨front.filterMap f, ?_⟩
    rw [List.filterMap_append, List.filterMap_cons_some ha, List.filterMap_eq_nil_iff.2 hbehind]

/-- The last line of a body with the box that asks for the suite has a property. -/
def LastBox (holds : Text → Prop) (body : Text) : Prop :=
  ∃ front line behind, Text.lines body = front ++ line :: behind ∧ holds line
    ∧ ∀ later ∈ behind, ¬ Directive.HasBox later

namespace Plan

variable (body : Text) (tags comments : List Text)

theorem shouldRunSuite_eq_some_iff {checked : Bool} :
    (ofPullRequest body tags comments).shouldRunSuite = some checked ↔
      LastBox (fun line => Directive.runSuite? line = some checked) body := by
  rw [ofPullRequest_shouldRunSuite, getLast?_filterMap_eq_some_iff]
  simp only [LastBox, Directive.runSuite?_eq_none_iff]

theorem shouldRunSuite_eq_true_iff :
    (ofPullRequest body tags comments).shouldRunSuite = some true ↔
      LastBox Directive.IsChecked body := by
  simp only [shouldRunSuite_eq_some_iff, Directive.runSuite?_eq_true_iff]

theorem shouldRunSuite_eq_false_iff :
    (ofPullRequest body tags comments).shouldRunSuite = some false ↔
      LastBox Directive.IsUnchecked body := by
  simp only [shouldRunSuite_eq_some_iff, Directive.runSuite?_eq_false_iff]

theorem shouldRunSuite_eq_none_iff :
    (ofPullRequest body tags comments).shouldRunSuite = none ↔
      ∀ line ∈ Text.lines body, ¬ Directive.HasBox line := by
  rw [ofPullRequest_shouldRunSuite, List.getLast?_eq_none_iff, List.filterMap_eq_nil_iff]
  simp only [Directive.runSuite?_eq_none_iff]

end Plan
end PullPlan
