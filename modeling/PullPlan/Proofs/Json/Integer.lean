import PullPlan.Proofs.Json.Tree

/-!
# Trees with integers alone

The numbers in the value of a tree come from its numerals (`Tree.exists_numeral_of_mem_numbers`). So
what holds of the value of each numeral holds of each number:

* an integer in what the reader yields fits 64 bits, because longer ones are read as doubles
  (`Numeral.isWord_of_value?`);
* if all numerals are integers of 64 bits, then all numbers are read back (`Tree.isReadBack`). A
  zero with a minus sign is such a numeral, too: its value is the double -0, which is written as
  `-0.0`.
-/

namespace PullPlan
namespace Json

/-! ### The numerals of a tree -/

namespace Tree

mutual

/-- The numerals in a tree, in the order in which they are written. -/
def numerals : Tree → List Numeral
  | .number numeral => [numeral]
  | .array items => itemNumerals items
  | .object members => memberNumerals members
  | _ => []

/-- The numerals in the items of an array. -/
def itemNumerals : List Tree → List Numeral
  | [] => []
  | item :: items => numerals item ++ itemNumerals items

/-- The numerals in the values of the members of an object. -/
def memberNumerals : List (List Piece × Tree) → List Numeral
  | [] => []
  | (_, item) :: members => numerals item ++ memberNumerals members

end

mutual

/-- Every number in the value of a tree is the value of one of its numerals. -/
theorem exists_numeral_of_mem_numbers : ∀ (tree : Tree) {depth : Nat} {v : Json},
    tree.value? depth = some v →
    ∀ n ∈ v.numbers, ∃ numeral ∈ tree.numerals, numeral.value? = some n
  | .null, depth, v, h, n, hn => by
    obtain rfl := Option.some.inj h
    simp [numbers] at hn
  | .bool b, depth, v, h, n, hn => by
    obtain rfl := Option.some.inj h
    simp [numbers] at hn
  | .number numeral, depth, v, h, n, hn => by
    have hv : n = v := by
      obtain ⟨i, rfl⟩ | ⟨x, rfl⟩ := Numeral.value?_cases h
      · simpa [numbers] using hn
      · simpa [numbers] using hn
    exact ⟨numeral, List.mem_cons_self, hv ▸ h⟩
  | .string pieces, depth, v, h, n, hn => by
    obtain ⟨t, -, rfl⟩ := Option.map_eq_some_iff.1 h
    simp [numbers] at hn
  | .array items, 0, v, h, n, hn => by
    simp [value?] at h
  | .array items, depth + 1, v, h, n, hn => by
    obtain ⟨values, hvalues, rfl⟩ := Option.map_eq_some_iff.1 h
    exact exists_numeral_of_mem_itemNumbers items hvalues n hn
  | .object members, 0, v, h, n, hn => by
    simp [value?] at h
  | .object members, depth + 1, v, h, n, hn => by
    obtain ⟨entries, hentries, rfl⟩ := Option.map_eq_some_iff.1 h
    -- The dictionary drops entries that are overwritten, and adds none.
    obtain ⟨e, he, hne⟩ := mem_entryNumbers.1 hn
    exact exists_numeral_of_mem_entryNumbers members hentries n
      (mem_entryNumbers.2 ⟨e, Dict.mem_of_mem_ofList he, hne⟩)

theorem exists_numeral_of_mem_itemNumbers : ∀ (items : List Tree) {depth : Nat}
    {values : List Json}, itemValues? items depth = some values →
    ∀ n ∈ itemNumbers values, ∃ numeral ∈ itemNumerals items, numeral.value? = some n
  | [], depth, values, h, n, hn => by
    obtain rfl := Option.some.inj h
    simp [itemNumbers] at hn
  | item :: items, depth, values, h, n, hn => by
    simp only [itemValues?, Option.bind_eq_bind, Option.bind_eq_some_iff, Option.pure_def,
      Option.some.injEq] at h
    obtain ⟨value, hvalue, rest, hrest, rfl⟩ := h
    rcases List.mem_append.1 hn with hn | hn
    · obtain ⟨numeral, hmem, hnumeral⟩ := exists_numeral_of_mem_numbers item hvalue n hn
      exact ⟨numeral, List.mem_append_left _ hmem, hnumeral⟩
    · obtain ⟨numeral, hmem, hnumeral⟩ := exists_numeral_of_mem_itemNumbers items hrest n hn
      exact ⟨numeral, List.mem_append_right _ hmem, hnumeral⟩

theorem exists_numeral_of_mem_entryNumbers : ∀ (members : List (List Piece × Tree)) {depth : Nat}
    {entries : List (Text × Json)}, memberValues? members depth = some entries →
    ∀ n ∈ entryNumbers entries, ∃ numeral ∈ memberNumerals members, numeral.value? = some n
  | [], depth, entries, h, n, hn => by
    obtain rfl := Option.some.inj h
    simp [entryNumbers] at hn
  | (key, item) :: members, depth, entries, h, n, hn => by
    simp only [memberValues?, Option.bind_eq_bind, Option.bind_eq_some_iff, Option.pure_def,
      Option.some.injEq] at h
    obtain ⟨text, -, value, hvalue, rest, hrest, rfl⟩ := h
    rcases List.mem_append.1 hn with hn | hn
    · obtain ⟨numeral, hmem, hnumeral⟩ := exists_numeral_of_mem_numbers item hvalue n hn
      exact ⟨numeral, List.mem_append_left _ hmem, hnumeral⟩
    · obtain ⟨numeral, hmem, hnumeral⟩ := exists_numeral_of_mem_entryNumbers members hrest n hn
      exact ⟨numeral, List.mem_append_right _ hmem, hnumeral⟩

end

end Tree

/-! ### Integers that the reader yields -/

theorem Numeral.collect_lt (digits : Text) {n : Nat} (h : n < wordBound) :
    (collect n digits).1 < wordBound := by
  induction digits generalizing n with
  | nil => exact h
  | cons c digits ih =>
    rw [collect]
    dsimp only
    split
    · rename_i hnext
      exact ih hnext
    · exact h

/-- An integer that a numeral yields fits 64 bits. -/
theorem Numeral.isWord_of_value? {n : Numeral} {i : Int} (h : n.value? = some (.integer i)) :
    isWord i = true := by
  have hword : wordBound = 18446744073709551616 := rfl
  have hsigned : signedBound = 9223372036854775808 := rfl
  have hfront : (collect 0 n.whole).1 < wordBound := collect_lt n.whole (by omega)
  rw [value?] at h
  dsimp only at h
  simp only [isWord, Bool.and_eq_true, decide_eq_true_eq]
  split at h
  · have hi : ((collect 0 n.whole).1 : Int) = i := Json.integer.inj (Option.some.inj h)
    omega
  · split at h
    · rename_i hfits
      simp only [Bool.and_eq_true, decide_eq_true_eq] at hfits
      have hi : -((collect 0 n.whole).1 : Int) = i := Json.integer.inj (Option.some.inj h)
      omega
    · obtain ⟨m, -, hm⟩ := Option.map_eq_some_iff.1 h
      simp at hm

/-! ### Integers of 64 bits -/

/-- Whether a numeral is written as an integer and fits 64 bits, unsigned or signed. -/
def Numeral.IsInteger (n : Numeral) : Prop :=
  n.fraction = [] ∧ n.exponent = none ∧
    isWord (if n.negative then -(Text.toNat n.whole : Int) else Text.toNat n.whole) = true

instance (n : Numeral) : Decidable n.IsInteger := inferInstanceAs (Decidable (_ ∧ _ ∧ _))

/-- Whether a number is what an integer of 64 bits is read as: that integer, or the double -0. -/
def IsInteger : Json → Prop
  | .integer i => isWord i = true
  | .float x => x = ⟨true, .zero⟩
  | _ => False

instance : DecidablePred IsInteger
  | .integer i => inferInstanceAs (Decidable (isWord i = true))
  | .float x => inferInstanceAs (Decidable (x = ⟨true, .zero⟩))
  | .null | .bool _ | .string _ | .array _ | .object _ => inferInstanceAs (Decidable False)

/-- The value of such a numeral is such a number. -/
theorem Numeral.isInteger_of_value? {n : Numeral} (hn : n.IsInteger) {v : Json}
    (h : n.value? = some v) : v.IsInteger := by
  obtain ⟨hfraction, hexponent, hfits⟩ := hn
  cases v with
  | integer i => exact isWord_of_value? h
  | float x =>
    have hword : wordBound = 18446744073709551616 := rfl
    have hsigned : signedBound = 9223372036854775808 := rfl
    simp only [isWord, Bool.and_eq_true, decide_eq_true_eq] at hfits
    have hlt : Text.toNat n.whole < wordBound := by
      split at hfits <;> omega
    have hcollect : collect 0 n.whole = (Text.toNat n.whole, n.whole.length) := collect_eq hlt
    rw [value?, hcollect, hfraction, hexponent] at h
    simp only [List.isEmpty_nil, Option.isNone_none, BEq.rfl, Bool.and_true, Bool.true_and,
      Bool.not_eq_eq_eq_not, Bool.not_true, collect, Nat.sub_self, Option.getD_none] at h
    -- A double comes from a minus sign before what is not positive.
    split at h
    · simp at h
    · rename_i hsign
      split at h
      · simp at h
      · rename_i hfront
        simp only [Bool.not_eq_false] at hsign
        simp only [Bool.and_eq_true, decide_eq_true_eq, not_and, hsign, if_true] at hfront hfits
        have hzero : Text.toNat n.whole = 0 := by omega
        have hscale : scale? (.ofNat 0) 0 = some .zero := by decide
        rw [hzero] at h
        obtain ⟨m, hm, hx⟩ := Option.map_eq_some_iff.1 h
        obtain rfl : Magnitude.zero = m := Option.some.inj (hscale.symm.trans hm)
        rw [hsign] at hx
        exact (Json.float.inj hx).symm
  | _ =>
    obtain ⟨i, hi⟩ | ⟨x, hx⟩ := value?_cases h
    · simp at hi
    · simp at hx

/-- The double -0 is written as `-0.0` and read back as such. -/
theorem isReadBack_negativeZero : IsReadBack (.float ⟨true, .zero⟩) := by
  have hnumeral : Numeral.ofDouble ⟨true, .zero⟩ = ⟨true, ['0'], ['0'], none⟩ := rfl
  have hscale : Numeral.scale? (.ofNat 0) (-1) = some .zero := by
    show some (Numeral.shrink (.ofNat 0) 1) = some .zero
    rw [Numeral.shrink, if_pos (by decide)]
    decide
  rw [isReadBack_float_iff, hnumeral]
  show (Numeral.scale? (.ofNat 0) (-1)).map (fun m => Json.float ⟨true, m⟩) = _
  rw [hscale, Option.map_some]

theorem isReadBack_of_isInteger {n : Json} (h : n.IsInteger) : n.IsReadBack := by
  cases n with
  | integer i => exact isReadBack_integer h
  | float x =>
    obtain rfl : x = ⟨true, .zero⟩ := h
    exact isReadBack_negativeZero
  | _ => exact False.elim h

/-- In a tree with integers of 64 bits alone every number is read back. -/
theorem Tree.isReadBack {tree : Tree} (hintegers : ∀ numeral ∈ tree.numerals, numeral.IsInteger)
    {depth : Nat} {v : Json} (h : tree.value? depth = some v) : ∀ n ∈ v.numbers, n.IsReadBack := by
  intro n hn
  obtain ⟨numeral, hmem, hnumeral⟩ := tree.exists_numeral_of_mem_numbers h n hn
  exact isReadBack_of_isInteger (Numeral.isInteger_of_value? (hintegers numeral hmem) hnumeral)

end Json
end PullPlan
