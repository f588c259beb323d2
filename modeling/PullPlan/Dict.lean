import PullPlan.Text.Basic

/-!
# Dictionaries with sorted keys

A dictionary keeps its entries in ascending order of their keys, each key once. Keys are compared
character by character, which is also the order of their UTF-8 bytes. The view of a dictionary is
`Dict.get?`: `Dict.get?_insert` and `Dict.get?_erase` say what the operations do to it.
-/

namespace PullPlan

/-- A finite map from texts, with its entries in ascending order of the keys. -/
structure Dict (α : Type) where
  /-- The keys with their values. -/
  entries : List (Text × α)
  /-- Each key comes before all that follow it. -/
  ordered : entries.Pairwise fun a b => a.1 < b.1

namespace Dict

variable {α : Type}

theorem key_lt_trans {a b c : Text} (h₁ : a < b) (h₂ : b < c) : a < c := List.lt_trans h₁ h₂

theorem key_lt_irrefl (a : Text) : ¬ a < a := List.lt_irrefl a

theorem key_lt_of_not {a b : Text} (h₁ : ¬ a < b) (h₂ : a ≠ b) : b < a := by
  by_cases h : b < a
  · exact h
  · exact absurd (List.le_antisymm (List.not_lt.1 h) (List.not_lt.1 h₁)) h₂

/-! ### Entry lists -/

/-- Puts an entry in its place, over an entry of the same key. -/
def insertEntry (key : Text) (value : α) : List (Text × α) → List (Text × α)
  | [] => [(key, value)]
  | (k, v) :: rest =>
    if key < k then (key, value) :: (k, v) :: rest
    else if key = k then (key, value) :: rest
    else (k, v) :: insertEntry key value rest

/-- The value at a key of an entry list. -/
def lookup (key : Text) : List (Text × α) → Option α
  | [] => none
  | (k, v) :: rest => if key = k then some v else lookup key rest

theorem mem_insertEntry {key : Text} {value : α} {l : List (Text × α)} {e : Text × α}
    (h : e ∈ insertEntry key value l) : e = (key, value) ∨ e ∈ l := by
  induction l with
  | nil => simpa [insertEntry] using h
  | cons head rest ih =>
    obtain ⟨k, v⟩ := head
    rw [insertEntry] at h
    split at h
    · simpa using h
    · split at h
      · rcases List.mem_cons.1 h with h | h
        · exact .inl h
        · exact .inr (List.mem_cons_of_mem _ h)
      · rcases List.mem_cons.1 h with h | h
        · exact .inr (by simp [h])
        · rcases ih h with h | h
          · exact .inl h
          · exact .inr (List.mem_cons_of_mem _ h)

theorem pairwise_insertEntry {key : Text} {value : α} {l : List (Text × α)}
    (h : l.Pairwise fun a b => a.1 < b.1) :
    (insertEntry key value l).Pairwise fun a b => a.1 < b.1 := by
  induction l with
  | nil => simp [insertEntry]
  | cons head rest ih =>
    obtain ⟨k, v⟩ := head
    obtain ⟨hk, hrest⟩ := List.pairwise_cons.1 h
    rw [insertEntry]
    split
    · rename_i hlt
      refine List.pairwise_cons.2 ⟨fun e he => ?_, h⟩
      rcases List.mem_cons.1 he with rfl | he
      · exact hlt
      · exact key_lt_trans hlt (hk e he)
    · rename_i hlt
      split
      · rename_i heq
        exact List.pairwise_cons.2 ⟨fun e he => heq ▸ hk e he, hrest⟩
      · rename_i hne
        refine List.pairwise_cons.2 ⟨fun e he => ?_, ih hrest⟩
        rcases mem_insertEntry he with rfl | he
        · exact key_lt_of_not hlt hne
        · exact hk e he

theorem lookup_insertEntry {key : Text} {value : α} {l : List (Text × α)} {k : Text} :
    lookup k (insertEntry key value l) = if k = key then some value else lookup k l := by
  induction l with
  | nil => simp [insertEntry, lookup]
  | cons head rest ih =>
    obtain ⟨k', v⟩ := head
    rw [insertEntry]
    split
    · simp [lookup]
    · split
      · rename_i heq
        subst heq
        by_cases h : k = key <;> simp [lookup, h]
      · rename_i hne
        rw [lookup, ih, lookup]
        by_cases h : k = k'
        · subst h
          rw [if_pos rfl, if_pos rfl, if_neg fun e => hne e.symm]
        · rw [if_neg h, if_neg h]

theorem lookup_eq_none_of_lt {l : List (Text × α)} {key : Text}
    (h : ∀ e ∈ l, key < e.1) : lookup key l = none := by
  induction l with
  | nil => rfl
  | cons head rest ih =>
    have hlt : key < head.1 := h head List.mem_cons_self
    have hne : key ≠ head.1 := fun e => key_lt_irrefl head.1 (e ▸ hlt)
    rw [lookup, if_neg hne, ih fun e he => h e (List.mem_cons_of_mem _ he)]

/-! ### Operations -/

/-- The dictionary without entries. -/
def empty : Dict α := ⟨[], .nil⟩

instance : Inhabited (Dict α) := ⟨empty⟩

/-- The value at a key. -/
def get? (d : Dict α) (key : Text) : Option α := lookup key d.entries

/-- Sets the value at a key. -/
def insert (d : Dict α) (key : Text) (value : α) : Dict α :=
  ⟨insertEntry key value d.entries, pairwise_insertEntry d.ordered⟩

/-- Removes a key. -/
def erase (d : Dict α) (key : Text) : Dict α :=
  ⟨d.entries.filter fun e => e.1 ≠ key, d.ordered.filter _⟩

/-- Sets the entries of a list one after the other, so that the last one of a key stays. -/
def insertAll (d : Dict α) (entries : List (Text × α)) : Dict α :=
  entries.foldl (fun d e => d.insert e.1 e.2) d

/-- The dictionary of a list of entries; the last one of a key stays. -/
def ofList (entries : List (Text × α)) : Dict α := empty.insertAll entries

/-- The keys in ascending order. -/
def keys (d : Dict α) : List Text := d.entries.map (·.1)

/-- Whether there is no entry. -/
def isEmpty (d : Dict α) : Bool := d.entries.isEmpty

@[simp] theorem get?_empty (key : Text) : (empty : Dict α).get? key = none := rfl

@[simp] theorem get?_insert (d : Dict α) (key : Text) (value : α) (k : Text) :
    (d.insert key value).get? k = if k = key then some value else d.get? k :=
  lookup_insertEntry

@[simp] theorem get?_erase (d : Dict α) (key k : Text) :
    (d.erase key).get? k = if k = key then none else d.get? k := by
  obtain ⟨entries, ordered⟩ := d
  simp only [get?, erase]
  clear ordered
  induction entries with
  | nil => simp [lookup]
  | cons head rest ih =>
    by_cases h : head.1 = key
    · rw [List.filter_cons_of_neg (by simp [h]), ih, lookup]
      by_cases hk : k = key
      · simp [hk]
      · rw [if_neg hk, if_neg hk, if_neg (h ▸ hk)]
    · rw [List.filter_cons_of_pos (by simpa using h), lookup, ih, lookup]
      by_cases hk : k = head.1
      · rw [if_pos hk, if_pos hk, if_neg (hk ▸ h)]
      · rw [if_neg hk, if_neg hk]

end Dict
end PullPlan
