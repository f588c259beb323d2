import PullPlan.Json.Tree
import PullPlan.Proofs.Dict

/-!
# The values that the reader yields

The value of a tree is normal (`isNormal_of_value?`): its arrays and objects nest no deeper than was
allowed, and the entries of its objects are sorted. Being sorted, they stay as they are when they
are put into a dictionary again (`Dict.entries_ofList`).
-/

namespace PullPlan
namespace Json

/-! ### Normal values -/

mutual

/-- Whether at most `depth` arrays and objects stand inside each other, and the entries of every
object are sorted by key, each key once. -/
def IsNormal : Json → Nat → Prop
  | .array _, 0 => False
  | .array items, depth + 1 => AreNormal items depth
  | .object _, 0 => False
  | .object entries, depth + 1 =>
    (entries.Pairwise fun a b => a.1 < b.1) ∧ HasNormalValues entries depth
  | _, _ => True

/-- Whether all items are normal. -/
def AreNormal : List Json → Nat → Prop
  | [], _ => True
  | item :: items, depth => IsNormal item depth ∧ AreNormal items depth

/-- Whether the values of all entries are normal. -/
def HasNormalValues : List (Text × Json) → Nat → Prop
  | [], _ => True
  | (_, value) :: entries, depth => IsNormal value depth ∧ HasNormalValues entries depth

end

theorem hasNormalValues_iff {entries : List (Text × Json)} {depth : Nat} :
    HasNormalValues entries depth ↔ ∀ e ∈ entries, IsNormal e.2 depth := by
  induction entries with
  | nil => simp [HasNormalValues]
  | cons e entries ih => simp [HasNormalValues, ih]

/-- A numeral has an integer or a double as its value. -/
theorem Numeral.value?_cases {n : Numeral} {v : Json} (h : n.value? = some v) :
    (∃ i, v = .integer i) ∨ ∃ x, v = .float x := by
  rw [value?] at h
  dsimp only at h
  split at h
  · exact .inl ⟨_, (Option.some.inj h).symm⟩
  · split at h
    · exact .inl ⟨_, (Option.some.inj h).symm⟩
    · obtain ⟨m, -, hm⟩ := Option.map_eq_some_iff.1 h
      exact .inr ⟨_, hm.symm⟩

mutual

/-- The value of a tree is normal. -/
theorem isNormal_of_value? : ∀ (tree : Tree) {depth : Nat} {v : Json},
    tree.value? depth = some v → IsNormal v depth
  | .null, depth, v, h => by
    obtain rfl := Option.some.inj h
    simp only [IsNormal]
  | .bool b, depth, v, h => by
    obtain rfl := Option.some.inj h
    simp only [IsNormal]
  | .number numeral, depth, v, h => by
    obtain ⟨i, rfl⟩ | ⟨x, rfl⟩ := Numeral.value?_cases h
    · simp only [IsNormal]
    · simp only [IsNormal]
  | .string pieces, depth, v, h => by
    obtain ⟨t, -, rfl⟩ := Option.map_eq_some_iff.1 h
    simp only [IsNormal]
  | .array items, 0, v, h => by
    simp [Tree.value?] at h
  | .array items, depth + 1, v, h => by
    obtain ⟨values, hvalues, rfl⟩ := Option.map_eq_some_iff.1 h
    exact areNormal_of_itemValues? items hvalues
  | .object members, 0, v, h => by
    simp [Tree.value?] at h
  | .object members, depth + 1, v, h => by
    obtain ⟨entries, hentries, rfl⟩ := Option.map_eq_some_iff.1 h
    -- Putting the entries into a dictionary sorts them and adds none.
    have hnormal := hasNormalValues_iff.1 (hasNormalValues_of_memberValues? members hentries)
    refine ⟨(Dict.ofList entries).ordered, hasNormalValues_iff.2 fun e he => ?_⟩
    exact hnormal e (Dict.mem_of_mem_ofList he)

theorem areNormal_of_itemValues? : ∀ (items : List Tree) {depth : Nat} {values : List Json},
    Tree.itemValues? items depth = some values → AreNormal values depth
  | [], depth, values, h => by
    obtain rfl := Option.some.inj h
    exact trivial
  | item :: items, depth, values, h => by
    simp only [Tree.itemValues?, Option.bind_eq_bind, Option.bind_eq_some_iff, Option.pure_def,
      Option.some.injEq] at h
    obtain ⟨value, hvalue, rest, hrest, rfl⟩ := h
    exact ⟨isNormal_of_value? item hvalue, areNormal_of_itemValues? items hrest⟩

theorem hasNormalValues_of_memberValues? : ∀ (members : List (List Piece × Tree)) {depth : Nat}
    {entries : List (Text × Json)},
    Tree.memberValues? members depth = some entries → HasNormalValues entries depth
  | [], depth, entries, h => by
    obtain rfl := Option.some.inj h
    exact trivial
  | (key, item) :: members, depth, entries, h => by
    simp only [Tree.memberValues?, Option.bind_eq_bind, Option.bind_eq_some_iff, Option.pure_def,
      Option.some.injEq] at h
    obtain ⟨text, -, value, hvalue, rest, hrest, rfl⟩ := h
    exact ⟨isNormal_of_value? item hvalue, hasNormalValues_of_memberValues? members hrest⟩

end

/-! ### Integers of 64 bits -/

/-- Whether an integer fits 64 bits, unsigned or signed. -/
def isWord (i : Int) : Bool := -(signedBound : Int) ≤ i && i < wordBound

end Json
end PullPlan
