import PullPlan.Plan.Basic
import PullPlan.Proofs.Dict
import PullPlan.Proofs.Directive

/-!
# The last directive wins

`Plan.ofPullRequest` reads the body line by line and then the comments, and each directive
overwrites what an earlier one of its kind has set. `readLine_baseUrl`, `readLine_environment` and
`readLine_shouldRunSuite` say what one line does to each field, `readComment_eq` what a comment
does; `foldl_overwrite` turns each of them into a statement about all lines.

The main statement is `ofPullRequest_last_directive_wins`. It needs that no line declares both a
base URL and a variable (`Directive.baseUrl?_eq_none_of_assignment?`): otherwise a variable could be
lost on a line that is taken for a base URL.
-/

namespace PullPlan

/-! ### One line -/

namespace Directive

/-- The value that a line assigns to a variable, if it declares that variable. -/
def assigned? (key : Text) (line : Text) : Option EnvValue :=
  match assignment? line with
  | some entry => if key = entry.1 then some entry.2 else none
  | none => none

theorem assigned?_eq_some_iff {key line : Text} {value : EnvValue} :
    assigned? key line = some value ↔ assignment? line = some (key, value) := by
  rw [assigned?]
  cases assignment? line with
  | none => simp
  | some entry =>
    obtain ⟨k, v⟩ := entry
    by_cases h : key = k
    · simp [h]
    · have h' : k ≠ key := fun e => h e.symm
      simp [h, h']

end Directive

namespace Plan

open Directive

theorem readLine_baseUrl (plan : Plan) (line : Text) :
    (readLine plan line).baseUrl = (baseUrl? line).or plan.baseUrl := by
  cases hrun : runSuite? line <;> cases hurl : baseUrl? line <;>
    cases hvar : assignment? line <;> simp [readLine, hrun, hurl, hvar]

theorem readLine_shouldRunSuite (plan : Plan) (line : Text) :
    (readLine plan line).shouldRunSuite = (runSuite? line).or plan.shouldRunSuite := by
  cases hrun : runSuite? line <;> cases hurl : baseUrl? line <;>
    cases hvar : assignment? line <;> simp [readLine, hrun, hurl, hvar]

/-- A line that declares a variable is never passed over for a base URL. -/
theorem readLine_environment (plan : Plan) (line : Text) :
    (readLine plan line).environment =
      match assignment? line with
      | some entry => plan.environment.insert entry.1 entry.2
      | none => plan.environment := by
  cases hvar : assignment? line with
  | none =>
    cases hrun : runSuite? line <;> cases hurl : baseUrl? line <;> simp [readLine, hrun, hurl, hvar]
  | some entry =>
    have hurl : baseUrl? line = none := baseUrl?_eq_none_of_assignment? hvar
    cases hrun : runSuite? line <;> simp [readLine, hrun, hurl, hvar]

theorem readLine_environment_get? (key : Text) (plan : Plan) (line : Text) :
    (readLine plan line).environment.get? key
      = (assigned? key line).or (plan.environment.get? key) := by
  rw [readLine_environment, assigned?]
  cases assignment? line with
  | none => rfl
  | some entry =>
    dsimp only
    rw [Dict.get?_insert]
    split <;> rfl

/-- The last base URL of a text. -/
def lastBaseUrl? (text : Text) : Option Text :=
  ((Text.lines text).filterMap baseUrl?).getLast?

/-- A comment sets the base URL and nothing else. -/
theorem readComment_eq (plan : Plan) (comment : Text) :
    readComment plan comment
      = { plan with baseUrl := (lastBaseUrl? comment).or plan.baseUrl } := by
  rw [readComment, ← lastBaseUrl?]
  cases lastBaseUrl? comment <;> rfl

/-! ### All lines and all comments -/

theorem foldl_readLine_baseUrl (lines : List Text) (plan : Plan) :
    (lines.foldl readLine plan).baseUrl = ((lines.filterMap baseUrl?).getLast?).or plan.baseUrl :=
  foldl_overwrite Plan.baseUrl readLine_baseUrl lines plan

theorem foldl_readLine_shouldRunSuite (lines : List Text) (plan : Plan) :
    (lines.foldl readLine plan).shouldRunSuite
      = ((lines.filterMap runSuite?).getLast?).or plan.shouldRunSuite :=
  foldl_overwrite Plan.shouldRunSuite readLine_shouldRunSuite lines plan

theorem foldl_readLine_environment (key : Text) (lines : List Text) (plan : Plan) :
    (lines.foldl readLine plan).environment.get? key
      = ((lines.filterMap (assigned? key)).getLast?).or (plan.environment.get? key) :=
  foldl_overwrite (fun plan => plan.environment.get? key) (readLine_environment_get? key) lines plan

theorem foldl_readComment_baseUrl (comments : List Text) (plan : Plan) :
    (comments.foldl readComment plan).baseUrl
      = ((comments.filterMap lastBaseUrl?).getLast?).or plan.baseUrl := by
  refine foldl_overwrite Plan.baseUrl (fun plan comment => ?_) comments plan
  rw [readComment_eq]

/-- Comments leave all of a plan but its base URL alone. -/
theorem foldl_readComment_eq (comments : List Text) (plan : Plan) :
    comments.foldl readComment plan
      = { plan with baseUrl := (comments.foldl readComment plan).baseUrl } := by
  induction comments generalizing plan with
  | nil => rfl
  | cons comment comments ih =>
    rw [List.foldl_cons, ih (readComment plan comment), readComment_eq]

/-! ### The plan of a pull request -/

theorem ofPullRequest_baseUrl (body : Text) (tags comments : List Text) :
    (ofPullRequest body tags comments).baseUrl
      = (((body :: comments).flatMap Text.lines).filterMap baseUrl?).getLast? := by
  rw [ofPullRequest]
  dsimp only
  rw [foldl_readComment_baseUrl, foldl_readLine_baseUrl]
  have hempty : empty.baseUrl = none := rfl
  have hcomments : (comments.filterMap lastBaseUrl?).getLast?
      = ((comments.flatMap Text.lines).filterMap baseUrl?).getLast? := by
    rw [List.filterMap_flatMap]
    exact getLast?_filterMap_getLast? _ comments
  rw [hempty, Option.or_none, hcomments, List.flatMap_cons, List.filterMap_append,
    List.getLast?_append]

/-- The environment comes from the lines of the body alone. -/
theorem ofPullRequest_environment (body : Text) (tags comments : List Text) :
    (ofPullRequest body tags comments).environment
      = ((Text.lines body).foldl readLine empty).environment := by
  rw [ofPullRequest, foldl_readComment_eq]

theorem ofPullRequest_environment_get? (body : Text) (tags comments : List Text) (key : Text) :
    (ofPullRequest body tags comments).environment.get? key
      = ((Text.lines body).filterMap (assigned? key)).getLast? := by
  rw [ofPullRequest_environment, foldl_readLine_environment]
  exact Option.or_none

theorem ofPullRequest_shouldRunSuite (body : Text) (tags comments : List Text) :
    (ofPullRequest body tags comments).shouldRunSuite
      = ((Text.lines body).filterMap runSuite?).getLast? := by
  rw [ofPullRequest, foldl_readComment_eq]
  dsimp only
  rw [foldl_readLine_shouldRunSuite]
  exact Option.or_none

/-- Without comments the plan differs in nothing but the base URL. -/
theorem ofPullRequest_comments (body : Text) (tags comments : List Text) :
    ofPullRequest body tags comments
      = { ofPullRequest body tags [] with
          baseUrl := (ofPullRequest body tags comments).baseUrl } := by
  rw [ofPullRequest, foldl_readComment_eq]
  rfl

/-- A variable is declared by some line exactly when a last value is assigned to it. -/
theorem getLast?_assigned?_isSome_iff (lines : List Text) (key : Text) :
    (∃ value, (lines.filterMap (assigned? key)).getLast? = some value)
      ↔ ∃ line ∈ lines, ∃ value, assignment? line = some (key, value) := by
  rw [← Option.isSome_iff_exists, List.getLast?_isSome]
  constructor
  · intro hne
    obtain ⟨value, hvalue⟩ := List.exists_mem_of_ne_nil _ hne
    obtain ⟨line, hline, hassigned⟩ := List.mem_filterMap.1 hvalue
    exact ⟨line, hline, value, assigned?_eq_some_iff.1 hassigned⟩
  · rintro ⟨line, hline, value, hvalue⟩
    exact List.ne_nil_of_mem (List.mem_filterMap.2 ⟨line, hline, assigned?_eq_some_iff.2 hvalue⟩)

/-- **The last directive wins.** The base URL is the last one in the lines of the body and then of
the comments in order. A variable has the value of the last line of the body that declares it, also
where that line gives no value, and no other variable is there. Whether the suite runs is decided by
the last line of the body with the box that asks for it. Comments change nothing but the base URL.
-/
theorem ofPullRequest_last_directive_wins (body : Text) (tags comments : List Text) :
    (ofPullRequest body tags comments).baseUrl
        = (((body :: comments).flatMap Text.lines).filterMap baseUrl?).getLast? ∧
    (∀ key, (ofPullRequest body tags comments).environment.get? key
        = ((Text.lines body).filterMap (assigned? key)).getLast?) ∧
    (∀ key, key ∈ (ofPullRequest body tags comments).environment.keys
        ↔ ∃ line ∈ Text.lines body, ∃ value, assignment? line = some (key, value)) ∧
    (ofPullRequest body tags comments).shouldRunSuite
        = ((Text.lines body).filterMap runSuite?).getLast? ∧
    ofPullRequest body tags comments
        = { ofPullRequest body tags [] with
            baseUrl := (ofPullRequest body tags comments).baseUrl } := by
  refine ⟨ofPullRequest_baseUrl body tags comments,
    ofPullRequest_environment_get? body tags comments, fun key => ?_,
    ofPullRequest_shouldRunSuite body tags comments, ofPullRequest_comments body tags comments⟩
  rw [Dict.mem_keys_iff, ofPullRequest_environment_get?, getLast?_assigned?_isSome_iff]

end Plan
end PullPlan
