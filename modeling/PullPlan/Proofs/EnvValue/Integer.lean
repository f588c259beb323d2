import PullPlan.Proofs.EnvValue.Written
import PullPlan.Proofs.Number.Integer
import PullPlan.Proofs.Plan.LastWrite
import PullPlan.Proofs.RunnerConfig.Merge

/-!
# Small integers from the line of a body to the runner configuration

An integer of magnitude below 2^53 is cast to the double that it is, and that double is an integer
in JSON again. So the value of a variable is the number that its line writes, in whatever base and
with however many leading zeros (`ofText_integer_exact`).
-/

namespace PullPlan

/-! ### The value that a line leaves in the environment -/

namespace Plan

open Directive

/-- A variable has the value of its last line. -/
theorem ofPullRequest_environment_of_line {body name raw : Text} {before behind : List Text}
    (hlines : Text.lines body = before ++ (variableLead ++ (name ++ '=' :: raw)) :: behind)
    (hequals : '=' ∉ name) (hname : Text.trim name ≠ [])
    (hbehind : ∀ line ∈ behind, assigned? (Text.trim name) line = none)
    (tags comments : List Text) :
    (ofPullRequest body tags comments).environment.get? (Text.trim name)
      = some (EnvValue.ofText (Text.trimEnd raw)) := by
  have hassigned : assigned? (Text.trim name) (variableLead ++ (name ++ '=' :: raw))
      = some (EnvValue.ofText (Text.trimEnd raw)) := by
    rw [assigned?_eq_some_iff, assignment?_equals hequals, if_neg hname]
  rw [ofPullRequest_environment_get?, hlines, List.filterMap_append,
    List.filterMap_cons_some hassigned, List.filterMap_eq_nil_iff.2 hbehind,
    List.getLast?_append_cons]
  rfl

end Plan

/-- If the variable of a line is not assigned again, a merge sets it to the JSON of its value. -/
theorem RunnerConfig.merge_env_of_line {body name raw : Text} {before behind : List Text}
    (hlines : Text.lines body
      = before ++ (Directive.variableLead ++ (name ++ '=' :: raw)) :: behind)
    (hequals : '=' ∉ name) (hname : Text.trim name ≠ [])
    (hbehind : ∀ line ∈ behind, Directive.assigned? (Text.trim name) line = none)
    {json : Json} (hjson : (EnvValue.ofText (Text.trimEnd raw)).toJson? = some json)
    (tags comments : List Text) (config : RunnerConfig) (options : MergeOptions) :
    (config.merge (Plan.ofPullRequest body tags comments) options).env.get? (Text.trim name)
      = some json := by
  rw [merge_env_get?, Environment.json?,
    Plan.ofPullRequest_environment_of_line hlines hequals hname hbehind, Option.bind_some, hjson,
    Option.some_or]

/-! ### Small integers -/

namespace EnvValue

theorem ofText_of_isInteger {raw : Text} {v : Int} (h : Literal.IsInteger (Text.trim raw) v)
    (hv : v.natAbs < exactBound) : ∃ x, ofText raw = .number x ∧ x.toInt? = some v := by
  obtain ⟨x, hx, hint⟩ := h.number? hv
  have hne : raw ≠ [] := by
    rintro rfl
    exact h.ne_nil rfl
  exact ⟨x, ofText_of_number? hne hx, hint⟩

theorem toJson?_of_isInteger {raw : Text} {v : Int} (h : Literal.IsInteger (Text.trim raw) v)
    (hv : v.natAbs < exactBound) : (ofText raw).toJson? = some (.integer v) := by
  obtain ⟨x, hcast, hint⟩ := ofText_of_isInteger h hv
  rw [hcast, toJson?, numberJson_of_toInt? hint hv]

/-- **A small integer survives exactly from text to JSON.** Take a text that writes an integer of
magnitude below 2^53, in whatever base, with blanks around it and zeros in front. It is cast to the
double of exactly that value. As JSON that is the integer, printed without point or exponent, and so
is the variable of a line that assigns the text, once the plan is merged into a configuration.
Digits behind a mark are read without any rounding on the way, and the integer fits 64 bits. -/
theorem ofText_integer_exact {raw : Text} {v : Int} (h : Literal.IsInteger (Text.trim raw) v)
    (hv : v.natAbs < exactBound) :
    (∃ x, ofText raw = .number x ∧ x.value = v ∧ x.toInt? = some v) ∧
    (ofText raw).toJson? = some (.integer v) ∧
    ((ofText raw).written = Json.integerText v ∧
      (∀ level, (Json.integer v).prettyAt level = Json.integerText v) ∧
      (∀ c ∈ Json.integerText v, c = '-' ∨ isAsciiDigit c = true) ∧
      (v = 0 → Json.integerText v = ['0'])) ∧
    (∀ {body name : Text} {before behind : List Text},
      Text.lines body = before ++ (Directive.variableLead ++ (name ++ '=' :: raw)) :: behind →
      '=' ∉ name → Text.trim name ≠ [] →
      (∀ line ∈ behind, Directive.assigned? (Text.trim name) line = none) →
      ∀ (tags comments : List Text) (config : RunnerConfig) (options : MergeOptions),
        (config.merge (Plan.ofPullRequest body tags comments) options).env.get? (Text.trim name)
          = some (.integer v)) ∧
    (∀ radix ∈ Literal.radices, ∀ mark ∈ radix.marks, ∀ (front : Text) (c : Char) (back : Text),
      Text.trim raw = '0' :: mark :: (front ++ c :: back) →
      Literal.ReadsExactly radix.base front c) ∧
    (-(signedBound : Int) ≤ v ∧ v < signedBound) := by
  refine ⟨?_, toJson?_of_isInteger h hv, ⟨?_, fun _ => rfl, fun _ => Literal.mem_integerText, ?_⟩,
    ?_, ?_, ?_⟩
  · obtain ⟨x, hcast, hint⟩ := ofText_of_isInteger h hv
    exact ⟨x, hcast, Double.value_of_toInt? hint, hint⟩
  · rw [written, toJson?_of_isInteger h hv]
    rfl
  · rintro rfl
    rfl
  · intro body name before behind hlines hequals hname hbehind
    have hend : Literal.IsInteger (Text.trim (Text.trimEnd raw)) v := by
      rwa [Text.trim_trimEnd]
    exact RunnerConfig.merge_env_of_line hlines hequals hname hbehind (toJson?_of_isInteger hend hv)
  · intro radix hradix mark hmark front c back htrim
    rw [htrim] at h
    exact h.readsExactly hradix hmark hv
  · have hexact : exactBound = 9007199254740992 := rfl
    have hsigned : signedBound = 9223372036854775808 := rfl
    omega

/-- The largest integer below the bound, in base sixteen with a leading zero and blanks around
it. -/
def largestExact : Text := " 0X01fFFFFFFFFFFFF\t".toList

theorem isInteger_largestExact : Literal.IsInteger (Text.trim largestExact) 9007199254740991 := by
  have htrim : Text.trim largestExact = '0' :: 'X' :: "01fFFFFFFFFFFFF".toList := by decide
  have hwrites :
      Literal.Writes Literal.hexadecimal.base "01fFFFFFFFFFFFF".toList 9007199254740991 :=
    Literal.writes_iff.2 (by decide)
  rw [htrim]
  exact .based (by simp [Literal.radices]) (by decide) (by decide) hwrites

/-- A body that assigns that integer to a variable. -/
def largestBody : Text := "CYPRESS_limit=".toList ++ largestExact ++ "\nCYPRESS_other=1".toList

theorem ofText_integer_exact_largest :
    Literal.IsInteger (Text.trim largestExact) 9007199254740991 ∧
    (9007199254740991 : Int).natAbs < exactBound ∧
    (ofText largestExact).toJson? = some (.integer 9007199254740991) ∧
    (RunnerConfig.empty.merge (Plan.ofPullRequest largestBody [] []) .all).env.get? "limit".toList
      = some (.integer 9007199254740991) := by
  have hbound : (9007199254740991 : Int).natAbs < exactBound := by decide
  have h := ofText_integer_exact isInteger_largestExact hbound
  have hlines : Text.lines largestBody
      = [] ++ (Directive.variableLead ++ ("limit".toList ++ '=' :: largestExact))
        :: ["CYPRESS_other=1".toList] := by decide
  have hbehind : ∀ line ∈ ["CYPRESS_other=1".toList],
      Directive.assigned? (Text.trim "limit".toList) line = none := by
    intro line hline
    obtain rfl := List.mem_singleton.1 hline
    rfl
  have hmerge := h.2.2.2.1 hlines (by decide) (by decide) hbehind [] [] .empty .all
  exact ⟨isInteger_largestExact, hbound, h.2.1, hmerge⟩

end EnvValue
end PullPlan
