import PullPlan.Dict

/-!
# Dictionaries as maps

A dictionary is determined by its view `Dict.get?` (`Dict.ext_get?`), since its entries are sorted.
`Dict.mem_entries_iff` and `Dict.mem_keys_iff` read the entries off the view. What a list of entries
comes to as a dictionary is said by `Dict.valuesAt`, all values that the list has at a key.

The section on overwriting has the one induction behind every "last one wins" of this library
(`foldl_overwrite`): a value that each step of a fold may overwrite ends as the last one written.
-/

namespace PullPlan

/-! ### Overwriting -/

/-- If every step of a fold overwrites what `held` shows with what `write` yields, if anything, then
the fold ends with the last thing written, and with the initial one if nothing was. -/
theorem foldl_overwrite {σ α β : Type} {step : σ → α → σ} (held : σ → Option β)
    {write : α → Option β} (hstep : ∀ s a, held (step s a) = (write a).or (held s))
    (items : List α) (s : σ) :
    held (items.foldl step s) = ((items.filterMap write).getLast?).or (held s) := by
  -- The state changes from item to item, so the induction is for all of them.
  induction items generalizing s with
  | nil => rfl
  | cons a items ih =>
    rw [List.foldl_cons, ih, hstep]
    cases hw : write a with
    | none => rw [List.filterMap_cons_none hw, Option.none_or]
    | some b =>
      rw [List.filterMap_cons_some hw, List.getLast?_cons]
      cases (items.filterMap write).getLast? <;> rfl

/-- The last of the last items of some lists is the last item of the lists one after the other. -/
theorem getLast?_filterMap_getLast? {α β : Type} (f : α → List β) (items : List α) :
    (items.filterMap fun a => (f a).getLast?).getLast? = (items.flatMap f).getLast? := by
  induction items with
  | nil => rfl
  | cons a items ih =>
    rw [List.flatMap_cons, List.getLast?_append, ← ih, List.filterMap_cons]
    cases (f a).getLast? with
    | none => exact (Option.or_none).symm
    | some b =>
      dsimp only
      rw [List.getLast?_cons]
      cases (items.filterMap fun a => (f a).getLast?).getLast? <;> rfl

namespace Dict

variable {α β : Type}

/-! ### Entries -/

theorem lookup_eq_some_iff {l : List (Text × α)} (h : l.Pairwise fun a b => a.1 < b.1)
    {key : Text} {value : α} : lookup key l = some value ↔ (key, value) ∈ l := by
  induction l with
  | nil => simp [lookup]
  | cons head rest ih =>
    obtain ⟨k, v⟩ := head
    obtain ⟨hk, hrest⟩ := List.pairwise_cons.1 h
    rw [lookup, List.mem_cons]
    by_cases heq : key = k
    · -- The key cannot stand a second time behind its first entry.
      subst heq
      have hnone : (key, value) ∉ rest := fun hmem => key_lt_irrefl key (hk _ hmem)
      simp [hnone, eq_comm]
    · rw [if_neg heq, ih hrest]
      simp [heq]

theorem mem_entries_iff {d : Dict α} {key : Text} {value : α} :
    (key, value) ∈ d.entries ↔ d.get? key = some value :=
  (lookup_eq_some_iff d.ordered).symm

theorem mem_keys_iff {d : Dict α} {key : Text} :
    key ∈ d.keys ↔ ∃ value, d.get? key = some value := by
  simp [keys, ← mem_entries_iff]

/-- Each entry stands once, since even its key does. -/
theorem entries_nodup (d : Dict α) : d.entries.Nodup := by
  refine d.ordered.imp fun {a b} hlt heq => ?_
  rw [heq] at hlt
  exact key_lt_irrefl b.1 hlt

/-- A dictionary is determined by its view: both entry lists are sorted, so they agree from the
front on. -/
theorem ext_get? {d d' : Dict α} (h : ∀ key, d.get? key = d'.get? key) : d = d' := by
  have hperm : d.entries.Perm d'.entries := by
    rw [List.perm_ext_iff_of_nodup d.entries_nodup d'.entries_nodup]
    rintro ⟨key, value⟩
    rw [mem_entries_iff, mem_entries_iff, h]
  have heq : d.entries = d'.entries :=
    hperm.eq_of_pairwise (fun a b _ _ hab hba => absurd (key_lt_trans hab hba) (key_lt_irrefl _))
      d.ordered d'.ordered
  cases d
  cases d'
  simpa using heq

/-- Of the entries, what a function takes from the one with a given key. -/
theorem filterMap_entries_key (d : Dict α) (key : Text) (f : α → Option β) :
    (d.entries.filterMap fun e => if key = e.1 then f e.2 else none)
      = ((d.get? key).bind f).toList := by
  obtain ⟨entries, ordered⟩ := d
  simp only [get?]
  induction entries with
  | nil => rfl
  | cons head rest ih =>
    obtain ⟨hhead, hrest⟩ := List.pairwise_cons.1 ordered
    rw [lookup, List.filterMap_cons]
    by_cases hkey : key = head.1
    · -- Further entries have larger keys, so the rest of the list yields nothing.
      have hnone : lookup key rest = none := lookup_eq_none_of_lt fun e he => hkey ▸ hhead e he
      rw [ih hrest, hnone, if_pos hkey, if_pos hkey, Option.bind_some]
      cases f head.2 <;> rfl
    · rw [ih hrest, if_neg hkey, if_neg hkey]

/-! ### The values at a key -/

/-- All values that a list of entries has at a key. -/
def valuesAt (key : Text) (entries : List (Text × α)) : List α :=
  entries.filterMap fun e => if key = e.1 then some e.2 else none

theorem valuesAt_cons (key : Text) (e : Text × α) (entries : List (Text × α)) :
    valuesAt key (e :: entries)
      = if key = e.1 then e.2 :: valuesAt key entries else valuesAt key entries := by
  unfold valuesAt
  rw [List.filterMap_cons]
  by_cases hkey : key = e.1
  · rw [if_pos hkey, if_pos hkey]
  · rw [if_neg hkey, if_neg hkey]

theorem valuesAt_append (key : Text) (front back : List (Text × α)) :
    valuesAt key (front ++ back) = valuesAt key front ++ valuesAt key back :=
  List.filterMap_append

theorem valuesAt_map (key : Text) (f : α → β) (entries : List (Text × α)) :
    valuesAt key (entries.map fun e => (e.1, f e.2)) = (valuesAt key entries).map f := by
  induction entries with
  | nil => rfl
  | cons e entries ih =>
    rw [List.map_cons, valuesAt_cons, valuesAt_cons, ih]
    split <;> rfl

theorem valuesAt_entries (d : Dict α) (key : Text) :
    valuesAt key d.entries = (d.get? key).toList := by
  have hat := d.filterMap_entries_key key some
  rw [Option.bind_fun_some] at hat
  exact hat

theorem mem_valuesAt_iff {key : Text} {value : α} {entries : List (Text × α)} :
    value ∈ valuesAt key entries ↔ (key, value) ∈ entries := by
  induction entries with
  | nil => simp [valuesAt]
  | cons e entries ih =>
    rw [valuesAt_cons, List.mem_cons, ← ih, Prod.ext_iff]
    by_cases hkey : key = e.1
    · simp [hkey]
    · simp [hkey]

theorem count_map_fst (key : Text) (entries : List (Text × α)) :
    (entries.map (·.1)).count key = (valuesAt key entries).length := by
  induction entries with
  | nil => rfl
  | cons e entries ih =>
    rw [List.map_cons, List.count_cons, ih, valuesAt_cons]
    by_cases hkey : key = e.1
    · simp [hkey]
    · simp [hkey, Ne.symm hkey]

/-- Keys that are left out have no values, and the others keep theirs. -/
theorem valuesAt_filter (key : Text) (p : Text → Bool) (entries : List (Text × α)) :
    valuesAt key (entries.filter fun e => p e.1) = if p key then valuesAt key entries else [] := by
  induction entries with
  | nil => exact (ite_self _).symm
  | cons e entries ih =>
    by_cases hp : p e.1 = true
    · rw [List.filter_cons_of_pos (by simpa using hp), valuesAt_cons, valuesAt_cons, ih]
      by_cases hkey : key = e.1
      · subst hkey
        simp only [hp, if_true]
      · simp only [hkey, if_false]
    · rw [List.filter_cons_of_neg (by simpa using hp), valuesAt_cons, ih]
      by_cases hkey : key = e.1
      · subst hkey
        simp only [hp, if_false, Bool.false_eq_true]
      · simp only [hkey, if_false]

/-- Changing each value, where possible, changes the values at each key. -/
theorem valuesAt_mapM {f : α → Option β} {entries : List (Text × α)} {changed : List (Text × β)}
    (h : (entries.mapM fun e => (f e.2).map fun value => (e.1, value)) = some changed)
    (key : Text) : (valuesAt key changed).map some = (valuesAt key entries).map f := by
  induction entries generalizing changed with
  | nil =>
    obtain rfl : [] = changed := Option.some.inj h
    rfl
  | cons e entries ih =>
    simp only [List.mapM_cons, Option.bind_eq_bind, Option.bind_eq_some_iff, Option.map_eq_some_iff,
      Option.pure_def, Option.some.injEq] at h
    obtain ⟨_, ⟨value, hvalue, rfl⟩, rest, hrest, rfl⟩ := h
    rw [valuesAt_cons, valuesAt_cons]
    by_cases hkey : key = e.1
    · rw [if_pos hkey, if_pos hkey, List.map_cons, List.map_cons, ih hrest, hvalue]
    · rw [if_neg hkey, if_neg hkey, ih hrest]

/-! ### Dictionaries of lists -/

/-- After setting the entries of a list, a key has the last value set and else the earlier one. -/
theorem get?_insertAll (d : Dict α) (entries : List (Text × α)) (key : Text) :
    (d.insertAll entries).get? key = ((valuesAt key entries).getLast?).or (d.get? key) := by
  refine foldl_overwrite (fun d => d.get? key) (fun d e => ?_) entries d
  rw [get?_insert]
  split <;> rfl

theorem get?_ofList (entries : List (Text × α)) (key : Text) :
    (ofList entries).get? key = (valuesAt key entries).getLast? := by
  rw [ofList, get?_insertAll, get?_empty, Option.or_none]

/-- A key of a list is a key of its dictionary. -/
theorem get?_ofList_isSome {entries : List (Text × α)} {e : Text × α} (h : e ∈ entries) :
    ((ofList entries).get? e.1).isSome := by
  have hmem : e.2 ∈ valuesAt e.1 entries := mem_valuesAt_iff.2 h
  rw [get?_ofList, Option.isSome_iff_ne_none, ne_eq, List.getLast?_eq_none_iff]
  exact List.ne_nil_of_mem hmem

theorem get?_ofList_mapM {f : α → Option β} {entries : List (Text × α)}
    {changed : List (Text × β)}
    (h : (entries.mapM fun e => (f e.2).map fun value => (e.1, value)) = some changed)
    (key : Text) : ((ofList changed).get? key).map some = ((ofList entries).get? key).map f := by
  rw [get?_ofList, get?_ofList, ← List.getLast?_map, ← List.getLast?_map, valuesAt_mapM h]

/-- Nothing is in the dictionary of a list but what is in the list. -/
theorem mem_of_mem_ofList {entries : List (Text × α)} {e : Text × α}
    (h : e ∈ (ofList entries).entries) : e ∈ entries := by
  rw [mem_entries_iff, get?_ofList] at h
  exact mem_valuesAt_iff.1 (List.mem_of_getLast? h)

theorem ofList_entries (d : Dict α) : ofList d.entries = d := by
  refine ext_get? fun key => ?_
  rw [get?_ofList, valuesAt_entries]
  cases d.get? key <;> rfl

/-- The dictionary of a list that is sorted already has just the entries of the list. -/
theorem entries_ofList {entries : List (Text × α)}
    (h : entries.Pairwise fun a b => a.1 < b.1) : (ofList entries).entries = entries :=
  congrArg Dict.entries (ofList_entries ⟨entries, h⟩)

end Dict
end PullPlan
