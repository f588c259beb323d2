import PullPlan.RunnerConfig.Basic
import PullPlan.Proofs.Json.Decoding
import PullPlan.Proofs.Json.Integer
import PullPlan.Proofs.Json.Layout

/-!
# Reading runner configurations

What a configuration holds is said here in values alone. `valueAt?` is the value that an object
gives a key, the last one if the key is repeated, and `entryAt?` is the value that a configuration
has under a key when it is written. `ofTree?_isReadFrom` compares the two for an object and what is
read from it; `valuesAt_entries` says that nothing else is written, and no key twice.

`ofTree?_toJson` says what becomes of a configuration that is written and read: the texts in it come
back as they are, and each other value on its own, so that all depends on `Dict.readBack?`.
-/

namespace PullPlan

/-! ### Dictionaries that are written and read -/

namespace Dict

/-- The dictionary with each value written and read, at most `depth` levels deep. -/
def readBack? (d : Dict Json) (depth : Nat) : Option (Dict Json) :=
  (d.entries.mapM fun (e : Text × Json) =>
    (e.2.tree.value? depth).map fun value => (e.1, value)).map ofList

theorem readBack?_get? {d d' : Dict Json} {depth : Nat} (h : d.readBack? depth = some d')
    (key : Text) :
    (d'.get? key).map some = (d.get? key).map fun value => value.tree.value? depth := by
  obtain ⟨entries, hentries, rfl⟩ := Option.map_eq_some_iff.1 h
  have hget := get?_ofList_mapM (f := fun value : Json => value.tree.value? depth) hentries key
  rw [ofList_entries] at hget
  exact hget

theorem readBack?_self {d : Dict Json} {depth : Nat}
    (h : ∀ e ∈ d.entries, e.2.tree.value? depth = some e.2) : d.readBack? depth = some d := by
  have hentries : ∀ entries : List (Text × Json),
      (∀ e ∈ entries, e.2.tree.value? depth = some e.2) →
      (entries.mapM fun e => (e.2.tree.value? depth).map fun value => (e.1, value))
        = some entries := by
    intro entries hvalues
    induction entries with
    | nil => rfl
    | cons e entries ih =>
      obtain ⟨hvalue, hvalues⟩ := List.forall_mem_cons.1 hvalues
      rw [List.mapM_cons, hvalue, ih hvalues]
      rfl
  rw [readBack?, hentries d.entries h, Option.map_some, ofList_entries]

end Dict

namespace Json

theorem ofDict_injective {d d' : Dict Json} (h : ofDict d = ofDict d') : d = d' := by
  rw [← d.ofList_entries, ← d'.ofList_entries, Json.object.inj h]

theorem value?_tree_ofDict (d : Dict Json) (depth : Nat) :
    (ofDict d).tree.value? (depth + 1) = (d.readBack? depth).map ofDict := by
  show (Tree.memberValues? (memberTrees d.entries) depth).map
    (fun entries => ofDict (Dict.ofList entries)) = _
  rw [memberValues?_memberTrees, Dict.readBack?, Option.map_map]
  rfl

/-- Whether a value is `null`. -/
def isNull : Json → Bool
  | .null => true
  | _ => false

/-- Whether a value is an array without items. -/
def isEmptyArray : Json → Bool
  | .array [] => true
  | _ => false

end Json

namespace RunnerConfig

open Json (Tree)

/-! ### What is written -/

/-- The value that stands under a key of the written configuration, if there is one. -/
def entryAt? (config : RunnerConfig) (key : Text) : Option Json :=
  if key = baseUrlKey then config.baseUrl.map .string
  else if key = envKey then some (.ofDict config.env)
  else if key = specsKey then
    if config.specs.isEmpty then none else some (.ofTexts config.specs)
  else config.other.get? key

theorem entryAt?_baseUrl (config : RunnerConfig) :
    config.entryAt? baseUrlKey = config.baseUrl.map .string := rfl

theorem entryAt?_env (config : RunnerConfig) :
    config.entryAt? envKey = some (.ofDict config.env) := rfl

theorem entryAt?_specs (config : RunnerConfig) :
    config.entryAt? specsKey
      = if config.specs.isEmpty then none else some (.ofTexts config.specs) := rfl

theorem entryAt?_other (config : RunnerConfig) {key : Text} (h : key ∉ knownKeys) :
    config.entryAt? key = config.other.get? key := by
  have hurl : key ≠ baseUrlKey := fun heq => h (heq ▸ by decide)
  have henv : key ≠ envKey := fun heq => h (heq ▸ by decide)
  have hspecs : key ≠ specsKey := fun heq => h (heq ▸ by decide)
  rw [entryAt?, if_neg hurl, if_neg henv, if_neg hspecs]

theorem mem_knownKeys {key : Text} :
    key ∈ knownKeys ↔ key = baseUrlKey ∨ key = envKey ∨ key = specsKey := by
  simp [knownKeys]

/-- The known keys come first, in their order. -/
theorem entries_eq (config : RunnerConfig) :
    config.entries
      = (knownKeys.flatMap fun key => ((config.entryAt? key).map fun value => (key, value)).toList)
          ++ config.other.entries := by
  rw [entries]
  refine congrArg (· ++ config.other.entries) ?_
  simp only [knownKeys, List.flatMap_cons, List.flatMap_nil, List.append_nil, entryAt?_baseUrl,
    entryAt?_env, entryAt?_specs]
  cases config.baseUrl <;> cases config.specs.isEmpty <;> rfl

/-- Each key is written at most once. -/
theorem valuesAt_entries {config : RunnerConfig}
    (hunknown : ∀ key ∈ knownKeys, config.other.get? key = none) (key : Text) :
    Dict.valuesAt key config.entries = (config.entryAt? key).toList := by
  have hsingle : ∀ (name : Text) (o : Option Json),
      Dict.valuesAt key (o.map fun value => (name, value)).toList
        = if key = name then o.toList else [] := by
    intro name o
    cases o with
    | none => exact (ite_self _).symm
    | some value => exact Dict.valuesAt_cons key (name, value) []
  have hne : envKey ≠ baseUrlKey ∧ specsKey ≠ baseUrlKey ∧ specsKey ≠ envKey := by decide
  rw [entries_eq, Dict.valuesAt_append, Dict.valuesAt_entries]
  simp only [knownKeys, List.flatMap_cons, List.flatMap_nil, List.append_nil, Dict.valuesAt_append,
    hsingle]
  by_cases hkey : key ∈ knownKeys
  · -- A known key has one of the first three summands, and the other keys leave it alone.
    rw [hunknown key hkey]
    rcases mem_knownKeys.1 hkey with rfl | rfl | rfl
    · simp [hne.1.symm, hne.2.1.symm]
    · simp [hne.1, hne.2.2.symm]
    · simp [hne.2.1, hne.2.2]
  · rw [entryAt?_other config hkey]
    rw [mem_knownKeys, not_or, not_or] at hkey
    simp [hkey.1, hkey.2.1, hkey.2.2]

/-- Leaving out the known keys leaves the others. -/
theorem filter_entries {config : RunnerConfig}
    (hunknown : ∀ key ∈ knownKeys, config.other.get? key = none) :
    config.entries.filter (fun e => !knownKeys.contains e.1) = config.other.entries := by
  rw [entries_eq, List.filter_append]
  have hknown : (knownKeys.flatMap fun key =>
        ((config.entryAt? key).map fun value => (key, value)).toList).filter
        (fun e => !knownKeys.contains e.1) = [] := by
    refine List.filter_eq_nil_iff.2 fun e he => ?_
    obtain ⟨key, hkey, he⟩ := List.mem_flatMap.1 he
    obtain ⟨value, -, rfl⟩ := Option.map_eq_some_iff.1 (Option.mem_toList.1 he)
    simpa using hkey
  have hother : config.other.entries.filter (fun e => !knownKeys.contains e.1)
      = config.other.entries := by
    refine List.filter_eq_self.2 fun e he => ?_
    have hmem : e.1 ∉ knownKeys := by
      intro hmem
      have hget := Dict.mem_entries_iff.1 he
      rw [hunknown e.1 hmem] at hget
      contradiction
    simpa using hmem
  rw [hknown, hother, List.nil_append]

/-! ### Fields -/

theorem field?_eq_some_iff {α : Type} {missing a : α} {decode? : Tree → Option α}
    {o : Option Tree} :
    field? missing decode? o = some a ↔
      (o = none ∧ missing = a) ∨ ∃ tree, o = some tree ∧ decode? tree = some a := by
  cases o <;> simp [field?]

theorem dict?_eq_some_iff {tree : Tree} {d : Dict Json} :
    dict? tree = some d ↔ tree.value? valueDepth = some (.ofDict d) := by
  constructor
  · intro h
    unfold dict? at h
    split at h
    · rename_i entries hvalue
      -- The entries are sorted already, so the dictionary has just these.
      have hsorted : entries.Pairwise fun a b => a.1 < b.1 :=
        (Json.isNormal_of_value? tree hvalue).1
      rw [hvalue, ← Option.some.inj h, Json.ofDict, Dict.entries_ofList hsorted]
    · contradiction
  · intro h
    rw [dict?, h]
    exact congrArg some d.ofList_entries

/-! ### What is read -/

/-- The value that an object gives a key, the last one if there are several. -/
def valueAt? (members : List (Text × Tree)) (key : Text) : Option Json :=
  ((Dict.ofList members).get? key).bind fun tree => tree.value? valueDepth

/-- Whether the tree at a key has a value, if there is one. -/
def IsReadable (members : List (Text × Tree)) (key : Text) : Prop :=
  ((Dict.ofList members).get? key).isSome → (valueAt? members key).isSome

/-- What the fields of a configuration have to do with the object that it is read from. -/
structure IsReadFrom (config : RunnerConfig) (members : List (Text × Tree)) : Prop where
  baseUrl : config.entryAt? baseUrlKey
    = (valueAt? members baseUrlKey).filter fun value => !value.isNull
  env : config.entryAt? envKey = some ((valueAt? members envKey).getD (.object []))
  specs : config.entryAt? specsKey
    = (valueAt? members specsKey).filter fun value => !value.isEmptyArray
  other : ∀ key ∉ knownKeys, config.entryAt? key = valueAt? members key
  unknown : ∀ key ∈ knownKeys, config.other.get? key = none
  readable : ∀ key, IsReadable members key

theorem get?_ofList_of_only? {key : Text} {members : List (Text × Tree)} {o : Option Tree}
    (h : Tree.only? key members = some o) : (Dict.ofList members).get? key = o := by
  have hvalues := Tree.only?_eq_some_iff.1 h
  rw [Dict.get?_ofList, hvalues]
  cases o <;> rfl

/-- A field is missing, or it holds the value at its key. -/
theorem valueAt?_of_field {α : Type} {key : Text} {members : List (Text × Tree)} {o : Option Tree}
    {missing a : α} {decode? : Tree → Option α} (honly : Tree.only? key members = some o)
    (hfield : field? missing decode? o = some a) (toJson : α → Json)
    (hdecode : ∀ tree, decode? tree = some a → tree.value? valueDepth = some (toJson a)) :
    IsReadable members key ∧
      ((valueAt? members key = none ∧ missing = a) ∨ valueAt? members key = some (toJson a)) := by
  have hget := get?_ofList_of_only? honly
  rcases field?_eq_some_iff.1 hfield with ⟨rfl, hmissing⟩ | ⟨tree, rfl, htree⟩
  · have hvalue : valueAt? members key = none := by
      rw [valueAt?, hget, Option.bind_none]
    refine ⟨fun hsome => ?_, .inl ⟨hvalue, hmissing⟩⟩
    rw [hget] at hsome
    contradiction
  · have hvalue : valueAt? members key = some (toJson a) := by
      rw [valueAt?, hget, Option.bind_some, hdecode tree htree]
    refine ⟨fun _ => ?_, .inr hvalue⟩
    rw [hvalue, Option.isSome_some]

section

variable {members : List (Text × Tree)} {other : List (Text × Json)}
  (hother : ((members.filter fun member => !knownKeys.contains member.1).mapM fun member =>
    (member.2.value? valueDepth).map fun value => (member.1, value)) = some other)

include hother

theorem get?_other_of_known {key : Text} (hkey : key ∈ knownKeys) :
    (Dict.ofList other).get? key = none := by
  have hfilter := Dict.valuesAt_filter key (fun key => !knownKeys.contains key) members
  have hget := Dict.get?_ofList_mapM (f := fun tree : Tree => tree.value? valueDepth) hother key
  rw [Dict.get?_ofList (members.filter _), hfilter] at hget
  simpa [hkey] using hget

/-- The other keys are read with the values that the object gives them. -/
theorem get?_other_of_unknown {key : Text} (hkey : key ∉ knownKeys) :
    IsReadable members key ∧ (Dict.ofList other).get? key = valueAt? members key := by
  have hfilter := Dict.valuesAt_filter key (fun key => !knownKeys.contains key) members
  have hget := Dict.get?_ofList_mapM (f := fun tree : Tree => tree.value? valueDepth) hother key
  rw [Dict.get?_ofList (members.filter _), hfilter, if_pos (by simpa using hkey),
    ← Dict.get?_ofList] at hget
  unfold IsReadable valueAt?
  cases htree : (Dict.ofList members).get? key with
  | none => simpa [htree] using hget
  | some tree =>
    rw [htree, Option.map_some] at hget
    obtain ⟨value, hvalue, hread⟩ := Option.map_eq_some_iff.1 hget
    rw [Option.bind_some, ← hread, hvalue]
    exact ⟨fun _ => rfl, rfl⟩

end

theorem ofTree?_isReadFrom {tree : Tree} {members : List (Text × Tree)} {config : RunnerConfig}
    (hmembers : tree.members? = some members) (h : ofTree? tree = some config) :
    config.IsReadFrom members := by
  simp only [ofTree?, hmembers, Option.bind_eq_bind, Option.bind_some, Option.bind_eq_some_iff,
    Option.pure_def, Option.some.injEq] at h
  obtain ⟨urlTree, hurlTree, envTree, henvTree, specsTree, hspecsTree, baseUrl, hurl, env, henv,
    specs, hspecs, other, hother, rfl⟩ := h
  -- A field that is missing and one that holds the default are written alike.
  obtain ⟨hurlReadable, hurl⟩ := valueAt?_of_field hurlTree hurl Json.textOrNull fun tree =>
    (Tree.nullable?_text?_eq_some_iff valueDepth).1
  obtain ⟨henvReadable, henv⟩ := valueAt?_of_field henvTree henv Json.ofDict fun tree =>
    dict?_eq_some_iff.1
  obtain ⟨hspecsReadable, hspecs⟩ := valueAt?_of_field hspecsTree hspecs Json.ofTexts fun tree =>
    (Tree.list?_text?_eq_some_iff _).1
  refine ⟨?_, ?_, ?_, ?_, fun key => get?_other_of_known hother, ?_⟩
  · rcases hurl with ⟨hvalue, rfl⟩ | hvalue
    · rw [hvalue]
      rfl
    · rw [hvalue, entryAt?_baseUrl]
      cases baseUrl <;> rfl
  · rcases henv with ⟨hvalue, rfl⟩ | hvalue
    · rw [hvalue]
      rfl
    · rw [hvalue, entryAt?_env, Option.getD_some]
  · rcases hspecs with ⟨hvalue, rfl⟩ | hvalue
    · rw [hvalue]
      rfl
    · rw [hvalue, entryAt?_specs]
      cases specs <;> rfl
  · intro key hkey
    rw [entryAt?_other _ hkey]
    exact (get?_other_of_unknown hother hkey).2
  · intro key
    by_cases hkey : key ∈ knownKeys
    · rcases mem_knownKeys.1 hkey with rfl | rfl | rfl
      · exact hurlReadable
      · exact henvReadable
      · exact hspecsReadable
    · exact (get?_other_of_unknown hother hkey).1

/-- A configuration is read from the members of an object. -/
theorem exists_isReadFrom {t : Text} {config : RunnerConfig} (h : ofText? t = some config) :
    ∃ members, config.IsReadFrom members := by
  obtain ⟨tree, -, hconfig⟩ := Option.bind_eq_some_iff.1 h
  obtain ⟨members, hmembers, -⟩ := Option.bind_eq_some_iff.1 hconfig
  exact ⟨members, ofTree?_isReadFrom hmembers hconfig⟩

/-! ### Writing and reading -/

theorem field?_baseUrl (config : RunnerConfig) :
    field? none (Tree.nullable? Tree.text?) ((config.entryAt? baseUrlKey).map Json.tree)
      = some config.baseUrl := by
  rw [entryAt?_baseUrl]
  cases config.baseUrl with
  | none => rfl
  | some url =>
    have hvalue : (Json.string url).tree.value? valueDepth = some (Json.textOrNull (some url)) :=
      Json.value?_tree_string url valueDepth
    exact (Tree.nullable?_text?_eq_some_iff valueDepth).2 hvalue

theorem field?_env (config : RunnerConfig) :
    field? .empty dict? ((config.entryAt? envKey).map Json.tree)
      = config.env.readBack? (valueDepth - 1) := by
  have hvalue : (Json.ofDict config.env).tree.value? valueDepth
      = (config.env.readBack? (valueDepth - 1)).map Json.ofDict :=
    Json.value?_tree_ofDict config.env (valueDepth - 1)
  rw [entryAt?_env]
  show dict? (Json.ofDict config.env).tree = _
  refine Option.ext fun env => ?_
  rw [dict?_eq_some_iff, hvalue, Option.map_eq_some_iff]
  exact ⟨fun ⟨_, hread, heq⟩ => Json.ofDict_injective heq ▸ hread, fun hread => ⟨env, hread, rfl⟩⟩

/-- A list of specs that is left out is empty. -/
theorem field?_specs (config : RunnerConfig) :
    field? [] (Tree.list? Tree.text?) ((config.entryAt? specsKey).map Json.tree)
      = some config.specs := by
  rw [entryAt?_specs]
  cases hempty : config.specs.isEmpty with
  | true =>
    rw [List.isEmpty_iff.1 hempty]
    rfl
  | false =>
    exact (Tree.list?_text?_eq_some_iff (valueDepth - 1)).2
      (Json.value?_tree_ofTexts config.specs (valueDepth - 1))

/-- Reading what was written takes each value on its own. -/
theorem ofTree?_toJson {config : RunnerConfig}
    (hunknown : ∀ key ∈ knownKeys, config.other.get? key = none) :
    ofTree? config.toJson.tree
      = (config.env.readBack? (valueDepth - 1)).bind fun env =>
          (config.other.readBack? valueDepth).map fun other =>
            ⟨config.baseUrl, env, config.specs, other⟩ := by
  have honly : ∀ key, Tree.only? key (config.entries.map fun e => (e.1, e.2.tree))
      = some ((config.entryAt? key).map Json.tree) := by
    intro key
    rw [Tree.only?_eq_some_iff, Dict.valuesAt_map, valuesAt_entries hunknown]
    cases config.entryAt? key <;> rfl
  have hother : (config.entries.map fun e => (e.1, e.2.tree)).filter
        (fun member => !knownKeys.contains member.1)
      = config.other.entries.map fun e => (e.1, e.2.tree) := by
    rw [List.filter_map, ← filter_entries hunknown]
    rfl
  rw [ofTree?, toJson, Json.members?_tree]
  simp only [Option.bind_eq_bind, Option.bind_some, honly, field?_baseUrl, field?_env, field?_specs,
    hother]
  refine congrArg (Option.bind _) (funext fun env => ?_)
  rw [List.mapM_map, Dict.readBack?, Option.map_map, Option.map_eq_bind]
  rfl

/-- Whether each value of a configuration is what the reader makes of its text, and no key that has
a field of its own stands among the others. -/
structure IsReadBack (config : RunnerConfig) : Prop where
  unknown : ∀ key ∈ knownKeys, config.other.get? key = none
  env : ∀ e ∈ config.env.entries, e.2.tree.value? (valueDepth - 1) = some e.2
  other : ∀ e ∈ config.other.entries, e.2.tree.value? valueDepth = some e.2

theorem IsReadBack.ofTree?_toJson {config : RunnerConfig} (h : config.IsReadBack) :
    ofTree? config.toJson.tree = some config := by
  rw [RunnerConfig.ofTree?_toJson h.unknown, Dict.readBack?_self h.env, Dict.readBack?_self h.other]
  rfl

theorem ofText?_compact (config : RunnerConfig) :
    ofText? config.toJson.compact = ofTree? config.toJson.tree := by
  rw [ofText?, Json.treeOfText?_compact]
  rfl

theorem ofText?_pretty (config : RunnerConfig) :
    ofText? config.toJson.pretty = ofTree? config.toJson.tree := by
  rw [ofText?, Json.treeOfText?_pretty]
  rfl

/-! ### Where the values come from -/

theorem exists_of_valueAt? {members : List (Text × Tree)} {key : Text} {value : Json}
    (h : valueAt? members key = some value) :
    ∃ member ∈ members, member.2.value? valueDepth = some value := by
  obtain ⟨tree, htree, hvalue⟩ := Option.bind_eq_some_iff.1 h
  exact ⟨_, Dict.mem_of_mem_ofList (Dict.mem_entries_iff.2 htree), hvalue⟩

variable {config : RunnerConfig} {members : List (Text × Tree)}

/-- A variable that is read stands in the value of a member. -/
theorem IsReadFrom.env_source (h : config.IsReadFrom members) {e : Text × Json}
    (he : e ∈ config.env.entries) :
    e.2.IsNormal (valueDepth - 1) ∧ ∃ member ∈ members, ∃ value,
      member.2.value? valueDepth = some value ∧ ∀ n ∈ e.2.numbers, n ∈ value.numbers := by
  have henv : Json.ofDict config.env = (valueAt? members envKey).getD (.object []) :=
    Option.some.inj h.env
  cases hvalue : valueAt? members envKey with
  | none =>
    rw [hvalue, Option.getD_none] at henv
    rw [Json.object.inj henv] at he
    contradiction
  | some value =>
    obtain rfl : Json.ofDict config.env = value := by rw [henv, hvalue, Option.getD_some]
    obtain ⟨member, hmember, hread⟩ := exists_of_valueAt? hvalue
    have hnormal : Json.HasNormalValues config.env.entries (valueDepth - 1) :=
      (Json.isNormal_of_value? member.2 hread).2
    exact ⟨Json.hasNormalValues_iff.1 hnormal e he, member, hmember, _, hread,
      fun n hn => Json.mem_entryNumbers.2 ⟨e, he, hn⟩⟩

/-- The value of another key that is read is the value of a member. -/
theorem IsReadFrom.other_source (h : config.IsReadFrom members) {e : Text × Json}
    (he : e ∈ config.other.entries) :
    e.2.IsNormal valueDepth ∧ ∃ member ∈ members, ∃ value,
      member.2.value? valueDepth = some value ∧ ∀ n ∈ e.2.numbers, n ∈ value.numbers := by
  have hget : config.other.get? e.1 = some e.2 := Dict.mem_entries_iff.1 he
  have hkey : e.1 ∉ knownKeys := by
    intro hkey
    rw [h.unknown e.1 hkey] at hget
    contradiction
  have hvalue : valueAt? members e.1 = some e.2 := by
    rw [← h.other e.1 hkey, entryAt?_other config hkey, hget]
  obtain ⟨member, hmember, hread⟩ := exists_of_valueAt? hvalue
  exact ⟨Json.isNormal_of_value? member.2 hread, member, hmember, _, hread, fun n hn => hn⟩

/-- What is read from an object with integers of 64 bits alone is read back. -/
theorem IsReadFrom.isReadBack (h : config.IsReadFrom members)
    (hintegers : ∀ member ∈ members, ∀ numeral ∈ member.2.numerals, numeral.IsInteger) :
    config.IsReadBack := by
  refine ⟨h.unknown, fun e he => ?_, fun e he => ?_⟩
  · obtain ⟨hnormal, member, hmember, value, hread, hnumbers⟩ := h.env_source he
    exact (Json.value?_tree_iff hnormal).2 fun n hn =>
      Json.Tree.isReadBack (hintegers member hmember) hread n (hnumbers n hn)
  · obtain ⟨hnormal, member, hmember, value, hread, hnumbers⟩ := h.other_source he
    exact (Json.value?_tree_iff hnormal).2 fun n hn =>
      Json.Tree.isReadBack (hintegers member hmember) hread n (hnumbers n hn)

end RunnerConfig
end PullPlan
