import PullPlan.Proofs.EnvValue.Written
import PullPlan.Proofs.Plan.LastWrite
import PullPlan.Proofs.Text.Lines

/-!
# Writing an environment and reading it back

`declarations` writes variables as lines of a body. Read as a pull request, such a body has the
environment that was written (`ofPullRequest_declarations_agrees`), in whatever order the variables
stand.

`Directive.IsVariable` is what makes this work: the reader yields only keys that survive being put
between the lead of a directive and an equals sign, and only values that survive `EnvValue.ofText`.
-/

namespace PullPlan

/-! ### One directive -/

namespace Directive

/-- What holds of every variable that a directive declares. -/
structure IsVariable (key : Text) (value : EnvValue) : Prop where
  ne_nil : key ≠ []
  trim_eq : Text.trim key = key
  equals_not_mem : '=' ∉ key
  lineFeed_not_mem : '\n' ∉ key
  isRead : value.IsRead

/-- The line that declares a variable with a value. -/
def declaration (key : Text) (value : EnvValue) : Text :=
  variableLead ++ (key ++ '=' :: value.written)

theorem isVariable_of_assignment? {line key : Text} {value : EnvValue} (hline : '\n' ∉ line)
    (h : assignment? line = some (key, value)) : IsVariable key value := by
  cases assignment?_eq_some_iff.1 h with
  | bare hfront hkey hequals hbehind =>
    exact {
      ne_nil := hkey.ne_nil
      trim_eq := Text.trim_eq_self hkey.head hkey.last
      equals_not_mem := hequals
      lineFeed_not_mem := fun hmem => hline (by simp [hmem])
      isRead := trivial }
  | @given front _ back raw behind hfront hkey hequals hback hraw hbehind =>
    exact {
      ne_nil := hkey.ne_nil
      trim_eq := Text.trim_eq_self hkey.head hkey.last
      equals_not_mem := hequals
      lineFeed_not_mem := fun hmem => hline (by simp [hmem])
      isRead := EnvValue.isRead_ofText raw }

/-- The last character of a declaration is its equals sign or belongs to the value. -/
theorem isBlank_getLast_declaration {key : Text} {value : EnvValue} {c : Char}
    (h : (key ++ '=' :: value.written).getLast? = some c) : isBlank c = false :=
  Text.isBlank_getLast_append_cons isBlank_equals (fun _ => EnvValue.isBlank_getLast_written) h

/-- A declaration declares what it was written for, with the value that its text is cast to. -/
theorem assignment?_declaration {key : Text} {value : EnvValue} (h : IsVariable key value) :
    assignment? (declaration key value) = some (key, EnvValue.ofText value.written) := by
  have hname : Text.trim key ≠ [] := by
    rw [h.trim_eq]
    exact h.ne_nil
  have hend : Text.trimEnd value.written = value.written :=
    Text.trimEnd_eq_self fun _ hc => EnvValue.isBlank_getLast_written hc
  rw [declaration, assignment?_equals h.equals_not_mem, if_neg hname, h.trim_eq, hend]

theorem lineFeed_not_mem_declaration {key : Text} {value : EnvValue} (h : IsVariable key value) :
    '\n' ∉ declaration key value := by
  have hlead : '\n' ∉ variableLead := by decide
  have hwritten := EnvValue.lineFeed_not_mem_written value
  unfold declaration
  simp [hlead, hwritten, h.lineFeed_not_mem]

theorem declaration_getLast?_ne {key : Text} {value : EnvValue} :
    (declaration key value).getLast? ≠ some '\r' := by
  intro hlast
  have hne : key ++ '=' :: value.written ≠ [] := by simp
  rw [declaration, List.getLast?_append_of_ne_nil _ hne] at hlast
  exact absurd (isBlank_getLast_declaration hlast) (by decide)

end Directive

/-! ### The environment of a written body -/

/-- Whether two environments have the same variables with the same values, up to the sign of a
zero. -/
def Environment.Agrees (environment environment' : Environment) : Prop :=
  ∀ key, Option.Rel EnvValue.Agrees (environment.get? key) (environment'.get? key)

namespace Plan

open Directive

/-- A body that declares the given variables, each on a line of its own. -/
def declarations (entries : List (Text × EnvValue)) : Text :=
  entries.flatMap fun e => declaration e.1 e.2 ++ ['\n']

/-- The lines of such a body are its declarations: none has a line feed in it, and none ends with a
carriage return that could be taken for part of the line end. -/
theorem lines_declarations {entries : List (Text × EnvValue)}
    (h : ∀ e ∈ entries, IsVariable e.1 e.2) :
    Text.lines (declarations entries) = entries.map fun e => declaration e.1 e.2 := by
  have hbody : declarations entries
      = (entries.map fun e => declaration e.1 e.2).flatMap fun t => t ++ ['\n'] := by
    rw [List.flatMap_map]
    rfl
  have hfeed : ∀ t ∈ entries.map fun e => declaration e.1 e.2, '\n' ∉ t :=
    List.forall_mem_map.2 fun e he => lineFeed_not_mem_declaration (h e he)
  rw [hbody, Text.lines_flatMap hfeed, List.map_map]
  apply List.map_congr_left
  intro e _
  exact Text.dropReturn_of_ne declaration_getLast?_ne

/-- What a plan has in its environment, a directive has declared. -/
theorem isVariable_of_mem_environment {body : Text} {tags comments : List Text}
    {e : Text × EnvValue} (h : e ∈ (ofPullRequest body tags comments).environment.entries) :
    IsVariable e.1 e.2 := by
  obtain ⟨key, value⟩ := e
  rw [Dict.mem_entries_iff, ofPullRequest_environment_get?] at h
  obtain ⟨line, hline, hassigned⟩ := List.mem_filterMap.1 (List.mem_of_getLast? h)
  exact isVariable_of_assignment? (Text.lineFeed_not_mem_of_mem_lines hline)
    (assigned?_eq_some_iff.1 hassigned)

/-- Each variable is declared once, so reading the body casts every written value once, whatever the
order of the lines. -/
theorem ofPullRequest_declarations_get? {environment : Environment}
    (hvariable : ∀ e ∈ environment.entries, IsVariable e.1 e.2)
    {order : List (Text × EnvValue)} (horder : order.Perm environment.entries)
    (tags comments : List Text) (key : Text) :
    (ofPullRequest (declarations order) tags comments).environment.get? key
      = (environment.get? key).map fun value => EnvValue.ofText value.written := by
  have horder' : ∀ e ∈ order, IsVariable e.1 e.2 := fun e he => hvariable e (horder.mem_iff.1 he)
  -- What each line assigns to the key, read off the entry that it was written for.
  have hassigned : (order.map fun e => declaration e.1 e.2).filterMap (assigned? key)
      = order.filterMap fun e =>
          if key = e.1 then some (EnvValue.ofText e.2.written) else none := by
    rw [List.filterMap_map]
    refine List.filterMap_congr fun e he => ?_
    show assigned? key (declaration e.1 e.2) = _
    unfold assigned?
    rw [assignment?_declaration (horder' e he)]
  -- In order of the keys there is at most one such entry, and the order does not matter to one.
  have hperm := horder.filterMap fun e =>
    if key = e.1 then some (EnvValue.ofText e.2.written) else none
  rw [Dict.filterMap_entries_key environment key
    fun value => some (EnvValue.ofText value.written)] at hperm
  rw [ofPullRequest_environment_get?, lines_declarations horder', hassigned]
  cases hget : environment.get? key with
  | none =>
    rw [hget] at hperm
    rw [List.perm_nil.1 hperm]
    rfl
  | some value =>
    rw [hget] at hperm
    rw [List.perm_singleton.1 hperm]
    rfl

/-- **An environment survives being written and read again.** Take the environment of any pull
request in which the numbers are exact, and declare its variables in a new body, in any order. The
environment of the new body has the same variables, each with a value of the same kind, and equal up
to the sign of a zero. -/
theorem ofPullRequest_declarations_agrees (body : Text) (tags comments : List Text)
    (hexact : ∀ e ∈ (ofPullRequest body tags comments).environment.entries, e.2.isExact = true)
    {order : List (Text × EnvValue)}
    (horder : order.Perm (ofPullRequest body tags comments).environment.entries)
    (newTags newComments : List Text) :
    (ofPullRequest (declarations order) newTags newComments).environment.Agrees
      (ofPullRequest body tags comments).environment := by
  intro key
  rw [ofPullRequest_declarations_get? (fun e => isVariable_of_mem_environment) horder]
  cases hget : (ofPullRequest body tags comments).environment.get? key with
  | none => exact Option.Rel.none
  | some value =>
    have hmem : (key, value) ∈ (ofPullRequest body tags comments).environment.entries :=
      Dict.mem_entries_iff.2 hget
    have hread : value.IsRead := (isVariable_of_mem_environment hmem).isRead
    exact Option.Rel.some (EnvValue.ofText_written hread (hexact _ hmem))

/-- A body that declares a zero with a sign, a text that looks like a number, a variable without a
value and an object with such a zero in it. -/
def sampleBody : Text :=
  "CYPRESS_low=-0\nCYPRESS_code=\"007\"\nCYPRESS_flag\nCYPRESS_user=\x7b\"ids\": [7, -0]\x7d".toList

/-- The variables of `sampleBody`, declared in reverse order. -/
theorem ofPullRequest_declarations_sampleBody :
    (ofPullRequest sampleBody [] []).environment.keys
        = ["code".toList, "flag".toList, "low".toList, "user".toList] ∧
    (ofPullRequest (declarations (ofPullRequest sampleBody [] []).environment.entries.reverse)
        [] []).environment.Agrees (ofPullRequest sampleBody [] []).environment :=
  ⟨by decide +kernel,
    ofPullRequest_declarations_agrees sampleBody [] [] (by decide +kernel) (List.reverse_perm _)
      [] []⟩

end Plan
end PullPlan
