import PullPlan.Json.Printer
import PullPlan.Proofs.Json.Value
import PullPlan.Proofs.Number.Literal

/-!
# The characters of compact JSON

Compact JSON stands on one line: it has no control character, since the printer writes no blank of
its own and escapes all of those in strings (`le_toNat_of_mem_compact`). It also ends with a printed
character (`isPrinted_getLast_compact`), so that nothing is lost when it is trimmed.
-/

namespace PullPlan
namespace Json

/-! ### Numbers and strings -/

theorem le_toNat_of_isPrinted {c : Char} (h : isPrinted c = true) : 0x20 ≤ c.toNat := by
  simp only [isPrinted, Bool.and_eq_true, decide_eq_true_eq] at h
  omega

theorem isPrinted_of_mem_zeros {n : Nat} {c : Char} (h : c ∈ zeros n) : isPrinted c = true := by
  rw [List.eq_of_mem_replicate h]
  decide

theorem isPrinted_of_mem_decimalText {d : Decimal} {c : Char} (h : c ∈ decimalText d) :
    isPrinted c = true := by
  have htail : ∀ c ∈ ".0".toList, isPrinted c = true := List.all_eq_true.1 (by decide)
  have hhead : ∀ c ∈ "0.".toList, isPrinted c = true := List.all_eq_true.1 (by decide)
  rw [decimalText] at h
  dsimp only at h
  split at h
  · split at h
    · -- A whole number, with the zeros that its exponent stands for.
      rcases List.mem_append.1 h with h | h
      · rcases List.mem_append.1 h with h | h
        · exact Text.isPrinted_of_mem_ofNat h
        · exact isPrinted_of_mem_zeros h
      · exact htail c h
    · split at h
      · -- The point stands among the digits.
        rcases List.mem_append.1 h with h | h
        · exact Text.isPrinted_of_mem_ofNat (List.mem_of_mem_take h)
        · rcases List.mem_cons.1 h with rfl | h
          · decide
          · exact Text.isPrinted_of_mem_ofNat (List.mem_of_mem_drop h)
      · -- The point stands before all digits.
        rcases List.mem_append.1 h with h | h
        · rcases List.mem_append.1 h with h | h
          · exact hhead c h
          · exact isPrinted_of_mem_zeros h
        · exact Text.isPrinted_of_mem_ofNat h
  · rcases List.mem_append.1 h with h | h
    · rcases List.mem_append.1 h with h | h
      · exact Text.isPrinted_of_mem_ofNat (List.mem_of_mem_take h)
      · split at h
        · simp at h
        · rcases List.mem_cons.1 h with rfl | h
          · decide
          · exact Text.isPrinted_of_mem_ofNat (List.mem_of_mem_drop h)
    · rcases List.mem_cons.1 h with rfl | h
      · decide
      · rcases List.mem_cons.1 h with rfl | h
        · split <;> decide
        · exact Text.isPrinted_of_mem_ofNat h

theorem isPrinted_of_mem_floatText {x : Double} {c : Char} (h : c ∈ floatText x) :
    isPrinted c = true := by
  have hzero : ∀ c ∈ "0.0".toList, isPrinted c = true := List.all_eq_true.1 (by decide)
  have hsign : ∀ c ∈ (if x.negative then ['-'] else []), isPrinted c = true := by
    refine List.all_eq_true.1 ?_
    split <;> decide
  rw [floatText] at h
  split at h
  · rcases List.mem_append.1 h with h | h
    · exact hsign c h
    · exact hzero c h
  · rcases List.mem_append.1 h with h | h
    · exact hsign c h
    · exact isPrinted_of_mem_decimalText h

theorem isPrinted_hexDigit {d : Nat} (h : d < 16) : isPrinted (hexDigit d) = true := by
  have hall : ∀ d : Fin 16, isPrinted (hexDigit d.val) = true := by decide
  exact hall ⟨d, h⟩

/-- Control characters are escaped, and the escapes have none. -/
theorem le_toNat_of_mem_escapeChar {c d : Char} (h : d ∈ escapeChar c) : 0x20 ≤ d.toNat := by
  rw [escapeChar] at h
  split at h
  · exact le_toNat_of_isPrinted (List.all_eq_true.1 (by decide) d h)
  split at h
  · exact le_toNat_of_isPrinted (List.all_eq_true.1 (by decide) d h)
  split at h
  · exact le_toNat_of_isPrinted (List.all_eq_true.1 (by decide) d h)
  split at h
  · exact le_toNat_of_isPrinted (List.all_eq_true.1 (by decide) d h)
  split at h
  · exact le_toNat_of_isPrinted (List.all_eq_true.1 (by decide) d h)
  split at h
  · exact le_toNat_of_isPrinted (List.all_eq_true.1 (by decide) d h)
  split at h
  · exact le_toNat_of_isPrinted (List.all_eq_true.1 (by decide) d h)
  split at h
  · rcases List.mem_append.1 h with h | h
    · exact le_toNat_of_isPrinted (List.all_eq_true.1 (by decide) d h)
    · have hdigits : d = hexDigit (c.toNat / 16) ∨ d = hexDigit (c.toNat % 16) := by
        simpa using h
      rcases hdigits with rfl | rfl
      · exact le_toNat_of_isPrinted (isPrinted_hexDigit (by omega))
      · exact le_toNat_of_isPrinted (isPrinted_hexDigit (by omega))
  · rename_i hcontrol
    rw [List.mem_singleton.1 h]
    omega

theorem le_toNat_of_mem_quote {t : Text} {c : Char} (h : c ∈ quote t) : 0x20 ≤ c.toNat := by
  rcases List.mem_append.1 h with h | h
  · rcases List.mem_cons.1 h with rfl | h
    · decide
    · obtain ⟨d, -, hd⟩ := List.mem_flatMap.1 h
      exact le_toNat_of_mem_escapeChar hd
  · rw [List.mem_singleton.1 h]
    decide

/-! ### Values -/

mutual

/-- Compact JSON has no control character. -/
theorem le_toNat_of_mem_compact : ∀ (v : Json) {c : Char}, c ∈ v.compact → 0x20 ≤ c.toNat
  | .null, c, h => le_toNat_of_isPrinted (List.all_eq_true.1 (by decide) c h)
  | .bool true, c, h => le_toNat_of_isPrinted (List.all_eq_true.1 (by decide) c h)
  | .bool false, c, h => le_toNat_of_isPrinted (List.all_eq_true.1 (by decide) c h)
  | .integer i, c, h => le_toNat_of_isPrinted (Literal.isPrinted_of_mem_integerText h)
  | .float x, c, h => le_toNat_of_isPrinted (isPrinted_of_mem_floatText h)
  | .string t, c, h => le_toNat_of_mem_quote h
  | .array [], c, h => le_toNat_of_isPrinted (List.all_eq_true.1 (by decide) c h)
  | .array (item :: items), c, h => by
    rcases List.mem_append.1 h with h | h
    · rcases List.mem_cons.1 h with rfl | h
      · decide
      · exact le_toNat_of_mem_compact item h
    · exact le_toNat_of_mem_compactItems items h
  | .object [], c, h => le_toNat_of_isPrinted (List.all_eq_true.1 (by decide) c h)
  | .object ((key, value) :: entries), c, h => by
    rcases List.mem_append.1 h with h | h
    · rcases List.mem_append.1 h with h | h
      · rcases List.mem_cons.1 h with rfl | h
        · decide
        · exact le_toNat_of_mem_quote h
      · rcases List.mem_cons.1 h with rfl | h
        · decide
        · exact le_toNat_of_mem_compact value h
    · exact le_toNat_of_mem_compactEntries entries h

theorem le_toNat_of_mem_compactItems : ∀ (items : List Json) {c : Char},
    c ∈ compactItems items → 0x20 ≤ c.toNat
  | [], c, h => by
    rw [List.mem_singleton.1 h]
    decide
  | item :: items, c, h => by
    rcases List.mem_append.1 h with h | h
    · rcases List.mem_cons.1 h with rfl | h
      · decide
      · exact le_toNat_of_mem_compact item h
    · exact le_toNat_of_mem_compactItems items h

theorem le_toNat_of_mem_compactEntries : ∀ (entries : List (Text × Json)) {c : Char},
    c ∈ compactEntries entries → 0x20 ≤ c.toNat
  | [], c, h => by
    rw [List.mem_singleton.1 h]
    decide
  | (key, value) :: entries, c, h => by
    rcases List.mem_append.1 h with h | h
    · rcases List.mem_append.1 h with h | h
      · rcases List.mem_cons.1 h with rfl | h
        · decide
        · exact le_toNat_of_mem_quote h
      · rcases List.mem_cons.1 h with rfl | h
        · decide
        · exact le_toNat_of_mem_compact value h
    · exact le_toNat_of_mem_compactEntries entries h

end

/-! ### The end of a value -/

theorem compactItems_getLast? (items : List Json) : (compactItems items).getLast? = some ']' := by
  induction items with
  | nil => rfl
  | cons item items ih =>
    show (',' :: item.compact ++ compactItems items).getLast? = some ']'
    rw [List.getLast?_append, ih]
    rfl

theorem compactEntries_getLast? (entries : List (Text × Json)) :
    (compactEntries entries).getLast? = some '\x7d' := by
  induction entries with
  | nil => rfl
  | cons e entries ih =>
    show (',' :: quote e.1 ++ ':' :: e.2.compact ++ compactEntries entries).getLast? = some '\x7d'
    rw [List.getLast?_append, ih]
    rfl

/-- Compact JSON ends with a printed character. -/
theorem isPrinted_getLast_compact (v : Json) {c : Char} (h : v.compact.getLast? = some c) :
    isPrinted c = true := by
  match v with
  | .null => exact List.all_eq_true.1 (by decide) c (List.mem_of_getLast? h)
  | .bool true =>
    exact List.all_eq_true.1 (by decide) c (List.mem_of_getLast? h)
  | .bool false =>
    exact List.all_eq_true.1 (by decide) c (List.mem_of_getLast? h)
  | .integer i => exact Literal.isPrinted_of_mem_integerText (List.mem_of_getLast? h)
  | .float x => exact isPrinted_of_mem_floatText (List.mem_of_getLast? h)
  | .string t =>
    have hlast : (quote t).getLast? = some '"' := by rw [quote, List.getLast?_append]; rfl
    obtain rfl : '"' = c := Option.some.inj (hlast.symm.trans h)
    decide
  | .array [] => exact List.all_eq_true.1 (by decide) c (List.mem_of_getLast? h)
  | .array (item :: items) =>
    have hlast : ('[' :: item.compact ++ compactItems items).getLast? = some ']' := by
      rw [List.getLast?_append, compactItems_getLast?]
      rfl
    obtain rfl : ']' = c := Option.some.inj (hlast.symm.trans h)
    decide
  | .object [] =>
    exact List.all_eq_true.1 (by decide) c (List.mem_of_getLast? h)
  | .object ((key, value) :: entries) =>
    have hlast : ('\x7b' :: quote key ++ ':' :: value.compact ++ compactEntries entries).getLast?
        = some '\x7d' := by
      rw [List.getLast?_append, compactEntries_getLast?]
      rfl
    obtain rfl : '\x7d' = c := Option.some.inj (hlast.symm.trans h)
    decide

end Json
end PullPlan
