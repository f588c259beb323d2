import PullPlan.RunnerConfig.File
import PullPlan.Proofs.RunnerConfig.Reading
import PullPlan.Proofs.RunnerConfig.Run

/-!
# Merging again after a round trip

Merging a plan twice is merging it once (`merge_merge`), but between two merges a configuration is
written to a file and read from it, and that may change a double: the reader rounds twice, so that
the text of a double may be read as one of its neighbours. What the plan sets anew is the same the
second time, so the numbers that matter are those in the values that the plan leaves alone, `kept`.

`text_merge_again_iff` says that the text stays the same exactly if the doubles in these values are
read back. Integers always are, since what the reader yields fits 64 bits.
-/

namespace PullPlan

theorem Dict.readBack?_get?_eq_iff {d d' : Dict Json} {depth : Nat}
    (h : d.readBack? depth = some d') (key : Text) :
    d'.get? key = d.get? key ↔
      ∀ value, d.get? key = some value → value.tree.value? depth = some value := by
  have hget := Dict.readBack?_get? h key
  cases hvalue : d.get? key with
  | none =>
    rw [hvalue, Option.map_none] at hget
    exact iff_of_true (Option.map_eq_none_iff.1 hget) fun value hsome => by contradiction
  | some value =>
    rw [hvalue, Option.map_some] at hget
    constructor
    · intro heq other hother
      rw [heq, Option.map_some] at hget
      obtain rfl := Option.some.inj hother
      exact (Option.some.inj hget).symm
    · intro hback
      rw [hback value rfl] at hget
      cases hread : d'.get? key with
      | none => simp [hread] at hget
      | some read =>
        rw [hread, Option.map_some] at hget
        exact Option.some.inj hget

namespace RunnerConfig

open Json (Tree)

variable {config : RunnerConfig} {members : List (Text × Tree)}

/-! ### What is read -/

/-- Of the numbers in a value that was read, the doubles decide whether it is read back. -/
theorem value?_tree_iff_doubles {v value : Json} {tree : Tree} {depth : Nat}
    (hnormal : v.IsNormal depth) (hread : tree.value? valueDepth = some value)
    (hnumbers : ∀ n ∈ v.numbers, n ∈ value.numbers) :
    v.tree.value? depth = some v ↔ ∀ x, .float x ∈ v.numbers → (Json.float x).IsReadBack := by
  rw [Json.value?_tree_iff hnormal]
  constructor
  · intro h x hx
    exact h _ hx
  · intro h n hn
    obtain ⟨numeral, -, hnumeral⟩ := tree.exists_numeral_of_mem_numbers hread n (hnumbers n hn)
    rcases Json.Numeral.value?_cases hnumeral with ⟨i, rfl⟩ | ⟨x, rfl⟩
    · exact Json.isReadBack_integer (Json.Numeral.isWord_of_value? hnumeral)
    · exact h x hn

theorem IsReadFrom.env_value?_tree_iff (h : config.IsReadFrom members) {key : Text} {v : Json}
    (hget : config.env.get? key = some v) :
    v.tree.value? (valueDepth - 1) = some v ↔
      ∀ x, .float x ∈ v.numbers → (Json.float x).IsReadBack := by
  obtain ⟨hnormal, member, -, value, hread, hnumbers⟩ := h.env_source (Dict.mem_entries_iff.2 hget)
  exact value?_tree_iff_doubles hnormal hread hnumbers

theorem IsReadFrom.other_value?_tree_iff (h : config.IsReadFrom members) {key : Text} {v : Json}
    (hget : config.other.get? key = some v) :
    v.tree.value? valueDepth = some v ↔
      ∀ x, .float x ∈ v.numbers → (Json.float x).IsReadBack := by
  obtain ⟨hnormal, member, -, value, hread, hnumbers⟩ :=
    h.other_source (Dict.mem_entries_iff.2 hget)
  exact value?_tree_iff_doubles hnormal hread hnumbers

/-! ### What a merge leaves alone -/

/-- The values that a merge leaves as they were: the variables that the plan does not set, and the
other keys. -/
def kept (config : RunnerConfig) (plan : Plan) (options : MergeOptions) : List (Text × Json) :=
  ((config.merge plan options).env.entries.filter fun e => (plan.environment.json? e.1).isNone)
    ++ config.other.entries

/-- The doubles in the values that a merge leaves alone are read back. -/
def KeepsDoubles (config : RunnerConfig) (plan : Plan) (options : MergeOptions) : Prop :=
  ∀ e ∈ config.kept plan options, ∀ x, .float x ∈ e.2.numbers → (Json.float x).IsReadBack

theorem keepsDoubles_iff {plan : Plan} {options : MergeOptions} :
    config.KeepsDoubles plan options ↔
      (∀ e ∈ (config.merge plan options).env.entries, plan.environment.json? e.1 = none →
        ∀ x, .float x ∈ e.2.numbers → (Json.float x).IsReadBack) ∧
      ∀ e ∈ config.other.entries, ∀ x, .float x ∈ e.2.numbers → (Json.float x).IsReadBack := by
  unfold KeepsDoubles kept
  rw [List.forall_mem_append]
  refine and_congr_left' (forall_congr' fun e => ?_)
  rw [List.mem_filter, Option.isNone_iff_eq_none, and_imp]

theorem outcome?_numbers {change : GrepChange} {key : Text} {v : Json}
    (h : change.outcome? key = some (some v)) : v.numbers = [] := by
  unfold GrepChange.outcome? at h
  cases change with
  | keep => contradiction
  | clear =>
    dsimp only at h
    split at h <;> simp at h
  | replace tags =>
    dsimp only at h
    split at h
    · obtain rfl := Option.some.inj (Option.some.inj h)
      rfl
    · split at h <;> simp at h

/-- The variables after the second merge are those after the first one exactly if the doubles in the
variables that the plan does not set are read back. -/
theorem merge_env_again_iff (h : config.IsReadFrom members) {plan : Plan} {options : MergeOptions}
    {again : RunnerConfig}
    (hback : (config.merge plan options).env.readBack? (valueDepth - 1) = some again.env) :
    (again.merge plan options).env = (config.merge plan options).env ↔
      ∀ e ∈ (config.merge plan options).env.entries, plan.environment.json? e.1 = none →
        ∀ x, .float x ∈ e.2.numbers → (Json.float x).IsReadBack := by
  -- At a key that neither the plan nor the filter decides, the value is the one that was read.
  have hkept : ∀ {key : Text}, plan.environment.json? key = none →
      (grepChange plan options).outcome? key = none →
      (config.merge plan options).env.get? key = config.env.get? key ∧
      (again.merge plan options).env.get? key = again.env.get? key := by
    intro key hplan hfilter
    rw [merge_env_get?, merge_env_get?, hplan, GrepChange.apply_get?, GrepChange.apply_get?,
      hfilter]
    exact ⟨rfl, rfl⟩
  constructor
  · intro heq e he hplan
    have hget := Dict.mem_entries_iff.1 he
    cases hfilter : (grepChange plan options).outcome? e.1 with
    | some outcome =>
      rw [merge_env_get?, hplan, GrepChange.apply_get?, hfilter] at hget
      have hnumbers : e.2.numbers = [] := outcome?_numbers (hfilter.trans (congrArg some hget))
      intro x hx
      rw [hnumbers] at hx
      contradiction
    | none =>
      obtain ⟨hfirst, hsecond⟩ := hkept hplan hfilter
      have hsame : again.env.get? e.1 = (config.merge plan options).env.get? e.1 := by
        rw [← hsecond, heq]
      exact (h.env_value?_tree_iff (hfirst ▸ hget)).1
        ((Dict.readBack?_get?_eq_iff hback e.1).1 hsame e.2 hget)
  · intro hdoubles
    refine Dict.ext_get? fun key => ?_
    cases hplan : plan.environment.json? key with
    | some value => rw [merge_env_get?, merge_env_get?, hplan, Option.some_or, Option.some_or]
    | none =>
      cases hfilter : (grepChange plan options).outcome? key with
      | some outcome =>
        rw [merge_env_get?, merge_env_get?, GrepChange.apply_get?, GrepChange.apply_get?, hfilter]
        rfl
      | none =>
        obtain ⟨hfirst, hsecond⟩ := hkept hplan hfilter
        rw [hsecond, Dict.readBack?_get?_eq_iff hback key]
        intro value hget
        exact (h.env_value?_tree_iff (hfirst ▸ hget)).2
          (hdoubles (key, value) (Dict.mem_entries_iff.2 hget) hplan)

theorem other_again_iff (h : config.IsReadFrom members) {other : Dict Json}
    (hback : config.other.readBack? valueDepth = some other) :
    other = config.other ↔
      ∀ e ∈ config.other.entries, ∀ x, .float x ∈ e.2.numbers → (Json.float x).IsReadBack := by
  constructor
  · rintro rfl e he
    have hget := Dict.mem_entries_iff.1 he
    exact (h.other_value?_tree_iff hget).1 ((Dict.readBack?_get?_eq_iff hback e.1).1 rfl e.2 hget)
  · intro hdoubles
    refine Dict.ext_get? fun key => (Dict.readBack?_get?_eq_iff hback key).2 fun value hget => ?_
    exact (h.other_value?_tree_iff hget).2 (hdoubles (key, value) (Dict.mem_entries_iff.2 hget))

/-! ### The text -/

/-- The written object determines the variables and the other keys. -/
theorem toJson_injective {config config' : RunnerConfig}
    (hunknown : ∀ key ∈ knownKeys, config.other.get? key = none)
    (hunknown' : ∀ key ∈ knownKeys, config'.other.get? key = none)
    (h : config.toJson = config'.toJson) :
    config.env = config'.env ∧ config.other = config'.other := by
  have hentry : ∀ key, config.entryAt? key = config'.entryAt? key := by
    intro key
    have hvalues := valuesAt_entries hunknown key
    rw [Json.object.inj h, valuesAt_entries hunknown'] at hvalues
    have hhead := congrArg List.head? hvalues
    rw [Option.head?_toList, Option.head?_toList] at hhead
    exact hhead.symm
  constructor
  · exact Json.ofDict_injective (Option.some.inj (hentry envKey))
  · refine Dict.ext_get? fun key => ?_
    by_cases hkey : key ∈ knownKeys
    · rw [hunknown key hkey, hunknown' key hkey]
    · rw [← entryAt?_other config hkey, ← entryAt?_other config' hkey, hentry]

/-- **When merging again after a round trip changes nothing.** -/
theorem text_merge_again_iff (h : config.IsReadFrom members) {plan : Plan} {options : MergeOptions}
    {again : RunnerConfig} (hagain : ofText? (config.merge plan options).text = some again) :
    (again.merge plan options).text = (config.merge plan options).text ↔
      config.KeepsDoubles plan options := by
  have hunknown : ∀ key ∈ knownKeys, (config.merge plan options).other.get? key = none := by
    simpa using h.unknown
  rw [text, ofText?_pretty, ofTree?_toJson hunknown] at hagain
  obtain ⟨env, henv, hagain⟩ := Option.bind_eq_some_iff.1 hagain
  obtain ⟨other, hother, hagain⟩ := Option.map_eq_some_iff.1 hagain
  have henv_iff : (again.merge plan options).env = (config.merge plan options).env ↔ _ :=
    merge_env_again_iff h (henv.trans (congrArg (some ·.env) hagain))
  -- What is read again differs in the variables and the other keys, if at all.
  subst hagain
  have hother_iff := other_again_iff h ((config.merge_other plan options) ▸ hother)
  rw [keepsDoubles_iff, ← henv_iff, ← hother_iff]
  constructor
  · intro htext
    have hunknown' : ∀ key ∈ knownKeys, other.get? key = none := by
      intro key hkey
      have hget := Dict.readBack?_get? hother key
      rw [hunknown key hkey] at hget
      exact Option.map_eq_none_iff.1 hget
    simpa using toJson_injective (by simpa using hunknown') hunknown (Json.pretty_injective htext)
  · rintro ⟨henv_eq, hother_eq⟩
    -- The base URL and the specs are read back, so the second merge leaves them as they are.
    have hmerge := config.merge_merge plan options
    have hurl : RunnerConfig.baseUrl (merge ⟨(config.merge plan options).baseUrl, env,
        (config.merge plan options).specs, other⟩ plan options)
          = (config.merge plan options).baseUrl :=
      (merge_baseUrl_congr (by rfl)).trans (congrArg RunnerConfig.baseUrl hmerge)
    have hspecs : RunnerConfig.specs (merge ⟨(config.merge plan options).baseUrl, env,
        (config.merge plan options).specs, other⟩ plan options)
          = (config.merge plan options).specs :=
      (merge_specs_congr (by rfl)).trans (congrArg RunnerConfig.specs hmerge)
    have hsame : RunnerConfig.merge ⟨(config.merge plan options).baseUrl, env,
        (config.merge plan options).specs, other⟩ plan options = config.merge plan options :=
      ext_fields hurl (fun key => by rw [henv_eq]) hspecs (by simpa using hother_eq)
    rw [hsame]

end RunnerConfig
end PullPlan
