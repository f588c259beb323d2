import PullPlan.Proofs.RunnerConfig.Reading
import PullPlan.Proofs.RunnerConfig.Run

/-!
# The round trip of runner configurations

A configuration file may hold any keys, and `codec` says what becomes of them: those that are not
known keep their values, whatever is merged in between, and the written text is read as the
configuration again. Numbers are integers of 64 bits here; doubles are not always read back.

Nothing is said about the order of the keys. The known ones are written first, and the others are
sorted.
-/

namespace PullPlan
namespace RunnerConfig

open Json (Tree)

variable {config : RunnerConfig}

/-! ### The written object -/

/-- The members of the object that a text is. -/
def objectOf? (t : Text) : Option (List (Text × Tree)) := (Tree.ofText? t).bind Tree.members?

/-- The members of the written object, whatever the layout. -/
def written (config : RunnerConfig) : List (Text × Tree) :=
  config.entries.map fun e => (e.1, e.2.tree)

theorem objectOf?_compact (config : RunnerConfig) :
    objectOf? config.toJson.compact = some config.written := by
  rw [objectOf?, Json.treeOfText?_compact]
  exact Json.members?_tree config.entries

theorem objectOf?_pretty (config : RunnerConfig) :
    objectOf? config.toJson.pretty = some config.written := by
  rw [objectOf?, Json.treeOfText?_pretty]
  exact Json.members?_tree config.entries

theorem written_nodup (hunknown : ∀ key ∈ knownKeys, config.other.get? key = none) :
    (config.written.map (·.1)).Nodup := by
  have hkeys : config.written.map (·.1) = config.entries.map (·.1) := by
    rw [written, List.map_map]
    rfl
  rw [hkeys, List.nodup_iff_count_le_one]
  intro key
  rw [Dict.count_map_fst, valuesAt_entries hunknown]
  cases config.entryAt? key with
  | none => exact Nat.zero_le 1
  | some value => exact Nat.le_refl 1

theorem IsReadBack.value?_tree (h : config.IsReadBack) {key : Text} {value : Json}
    (hentry : config.entryAt? key = some value) : value.tree.value? valueDepth = some value := by
  by_cases hkey : key ∈ knownKeys
  · rcases mem_knownKeys.1 hkey with rfl | rfl | rfl
    · rw [entryAt?_baseUrl] at hentry
      obtain ⟨url, -, rfl⟩ := Option.map_eq_some_iff.1 hentry
      exact Json.value?_tree_string url valueDepth
    · obtain rfl := Option.some.inj hentry
      have hvalue := Json.value?_tree_ofDict config.env (valueDepth - 1)
      rw [Dict.readBack?_self h.env] at hvalue
      exact hvalue
    · rw [entryAt?_specs] at hentry
      split at hentry
      · contradiction
      · obtain rfl := Option.some.inj hentry
        exact Json.value?_tree_ofTexts config.specs (valueDepth - 1)
  · rw [entryAt?_other config hkey] at hentry
    exact h.other _ (Dict.mem_entries_iff.2 hentry)

theorem IsReadBack.valueAt?_written (h : config.IsReadBack) (key : Text) :
    valueAt? config.written key = config.entryAt? key := by
  have hvalues : Dict.valuesAt key config.written
      = ((config.entryAt? key).map Json.tree).toList := by
    rw [written, Dict.valuesAt_map, valuesAt_entries h.unknown]
    cases config.entryAt? key <;> rfl
  have hget : (Dict.ofList config.written).get? key = (config.entryAt? key).map Json.tree := by
    rw [Dict.get?_ofList, hvalues]
    cases config.entryAt? key <;> rfl
  rw [valueAt?, hget]
  cases hentry : config.entryAt? key with
  | none => rfl
  | some value => exact h.value?_tree hentry

/-! ### Merging in between -/

theorem value?_tree_of_isInteger {v : Json} {depth : Nat} (hnormal : v.IsNormal depth)
    (hintegers : ∀ n ∈ v.numbers, n.IsInteger) : v.tree.value? depth = some v :=
  (Json.value?_tree_iff hnormal).2 fun n hn => Json.isReadBack_of_isInteger (hintegers n hn)

/-- Merging keeps a configuration readable as long as the variables are. -/
theorem IsReadBack.mergeAll (h : config.IsReadBack) {steps : List MergeStep}
    (hsteps : ∀ step ∈ steps, ∀ e ∈ step.plan.environment.present,
      e.2.tree.value? (valueDepth - 1) = some e.2) : (config.mergeAll steps).IsReadBack := by
  have hother : (config.mergeAll steps).other = config.other := mergeAll_other config steps
  refine ⟨hother ▸ h.unknown, fun e he => ?_, hother ▸ h.other⟩
  rcases mergeAll_env_source he with ⟨step, hstep, hmem⟩ | ⟨tags, htags⟩ | hmem
  · exact hsteps step hstep e hmem
  · rw [htags]
    exact Json.value?_tree_string tags _
  · exact h.env e hmem

/-- **What becomes of a configuration file.** Take a text that is an object with integers of 64 bits
alone and that is read as a configuration.

None of the known keys is among the others. Every other key is written with the value that it has
last in the text, and nothing else is written but the known keys, each key once: the base URL unless
it is missing or `null`, the specs unless they are missing or empty, and always the environment.

The written text is read as the same configuration. That stays so after any merges whose variables
have such numbers alone and leave room for the two objects around them, and the other keys stay as
they are. -/
theorem codec {t : Text} {members : List (Text × Tree)} (hmembers : objectOf? t = some members)
    (hread : ofText? t = some config)
    (hintegers : ∀ member ∈ members, ∀ numeral ∈ member.2.numerals, numeral.IsInteger) :
    (∀ key ∈ knownKeys, config.other.get? key = none) ∧
    (∀ member ∈ members, (valueAt? members member.1).isSome) ∧
    (∃ written, objectOf? config.toJson.compact = some written ∧
      objectOf? config.toJson.pretty = some written ∧
      (written.map (·.1)).Nodup ∧
      (∀ member ∈ written, (valueAt? written member.1).isSome) ∧
      (∀ key ∉ knownKeys, config.other.get? key = valueAt? members key ∧
        valueAt? written key = valueAt? members key) ∧
      valueAt? written baseUrlKey
        = ((valueAt? members baseUrlKey).filter fun value => !value.isNull) ∧
      valueAt? written envKey = some ((valueAt? members envKey).getD (.object [])) ∧
      valueAt? written specsKey
        = ((valueAt? members specsKey).filter fun value => !value.isEmptyArray)) ∧
    (ofText? config.toJson.compact = some config ∧ ofText? config.toJson.pretty = some config) ∧
    ∀ steps : List MergeStep,
      (∀ step ∈ steps, ∀ e ∈ step.plan.environment.present,
        e.2.IsNormal 125 ∧ ∀ n ∈ e.2.numbers, n.IsInteger) →
      (config.mergeAll steps).other = config.other ∧
      ofText? (config.mergeAll steps).toJson.compact = some (config.mergeAll steps) ∧
      ofText? (config.mergeAll steps).toJson.pretty = some (config.mergeAll steps) := by
  obtain ⟨tree, htree, hobject⟩ := Option.bind_eq_some_iff.1 hmembers
  have hconfig : ofTree? tree = some config := by
    rw [ofText?, htree] at hread
    exact hread
  have hfrom : config.IsReadFrom members := ofTree?_isReadFrom hobject hconfig
  have hback : config.IsReadBack := hfrom.isReadBack hintegers
  have hroundTrip : ∀ {c : RunnerConfig}, c.IsReadBack →
      ofText? c.toJson.compact = some c ∧ ofText? c.toJson.pretty = some c := by
    intro c hc
    rw [ofText?_compact, ofText?_pretty]
    exact ⟨hc.ofTree?_toJson, hc.ofTree?_toJson⟩
  -- Both objects are compared with the configuration, which has one value at each key.
  refine ⟨hfrom.unknown,
    fun member hmember => hfrom.readable _ (Dict.get?_ofList_isSome hmember),
    ⟨config.written, objectOf?_compact config, objectOf?_pretty config,
      written_nodup hfrom.unknown, ?_, ?_, ?_, ?_, ?_⟩,
    hroundTrip hback, ?_⟩
  · intro member hmember
    obtain ⟨e, he, rfl⟩ := List.mem_map.1 hmember
    have hvalue : e.2 ∈ Dict.valuesAt e.1 config.entries := Dict.mem_valuesAt_iff.2 he
    rw [valuesAt_entries hfrom.unknown, Option.mem_toList] at hvalue
    rw [hback.valueAt?_written, hvalue, Option.isSome_some]
  · intro key hkey
    rw [hback.valueAt?_written, ← hfrom.other key hkey, entryAt?_other config hkey]
    exact ⟨rfl, rfl⟩
  · rw [hback.valueAt?_written, hfrom.baseUrl]
  · rw [hback.valueAt?_written, hfrom.env]
  · rw [hback.valueAt?_written, hfrom.specs]
  · intro steps hsteps
    have hmerged : (config.mergeAll steps).IsReadBack := hback.mergeAll fun step hstep e he =>
      value?_tree_of_isInteger (hsteps step hstep e he).1 (hsteps step hstep e he).2
    exact ⟨mergeAll_other config steps, hroundTrip hmerged⟩

/-- A file with a key that is repeated, a base URL that is `null` and a zero with a minus sign. -/
def repeatedKey : Text :=
  "\x7b\"retries\": 1, \"baseUrl\": null, \"env\": \x7b\"n\": -0\x7d, \"retries\": 7\x7d".toList

/-- A plan that sets one variable to an array. -/
def arrayPlan : Plan :=
  { Plan.empty with environment := Dict.empty.insert ['a'] (.structured (.array [.integer 2])) }

/-- The last value of the repeated key is kept. -/
theorem codec_repeatedKey : ∃ config, ofText? repeatedKey = some config ∧
    config.toJson.compact = "\x7b\"env\":\x7b\"n\":-0.0\x7d,\"retries\":7\x7d".toList ∧
    ofText? config.toJson.compact = some config ∧
    (config.mergeAll [⟨arrayPlan, .all⟩]).other = config.other ∧
    ofText? (config.mergeAll [⟨arrayPlan, .all⟩]).toJson.pretty
      = some (config.mergeAll [⟨arrayPlan, .all⟩]) := by
  obtain ⟨members, hmembers⟩ : ∃ members, objectOf? repeatedKey = some members :=
    Option.isSome_iff_exists.1 (by decide +kernel)
  have hintegers : (((objectOf? repeatedKey).getD []).all fun member =>
      member.2.numerals.all fun numeral => decide numeral.IsInteger) = true := by
    decide +kernel
  simp only [hmembers, Option.getD_some, List.all_eq_true, decide_eq_true_eq] at hintegers
  have hcompact : (ofText? repeatedKey).map (fun config => config.toJson.compact)
      = some "\x7b\"env\":\x7b\"n\":-0.0\x7d,\"retries\":7\x7d".toList := by
    decide +kernel
  obtain ⟨config, hread, hcompact⟩ := Option.map_eq_some_iff.1 hcompact
  obtain ⟨-, -, -, ⟨hback, -⟩, hsteps⟩ := codec hmembers hread hintegers
  obtain ⟨hother, -, hpretty⟩ := hsteps [⟨arrayPlan, .all⟩] (by
    intro step hstep e he
    obtain rfl := List.mem_singleton.1 hstep
    obtain rfl : e = (['a'], .array [.integer 2]) := List.mem_singleton.1 he
    refine ⟨⟨trivial, trivial⟩, fun n hn => ?_⟩
    obtain rfl : n = .integer 2 := List.mem_singleton.1 hn
    show Json.isWord 2 = true
    decide)
  exact ⟨config, hread, hcompact, hback, hother, hpretty⟩

end RunnerConfig
end PullPlan
