import Mathlib.Data.List.TakeWhile
import PullPlan.Json.Printer
import PullPlan.Json.Reader
import PullPlan.Proofs.Json.Value
import PullPlan.Proofs.Number.Literal

/-!
# Numerals and integers

Every numeral is a number literal (`trimmed?_isSome_of_ofText?`), since the grammar of JSON numbers
is the smaller one. It is made of the characters that the reader takes for a number
(`isNumberChar_of_ofText?`).

What `integerText` writes is a numeral (`ofText?_integerText`), and its value is the integer again
if that fits 64 bits (`value?_integer`).
-/

namespace PullPlan
namespace Json
namespace Numeral

open State (isNumberChar)

/-! ### Numerals are decimals -/

/-- What follows the digits of a numeral is an exponent. -/
theorem isExponent_of_exponentPart? {t : Text} {e : Option Int} (h : exponentPart? t = some e) :
    Literal.IsExponent t := by
  have hdigits : ∀ {digits : Text} {f : Int → Option Int},
      (Text.natural? digits : Option Int).map f = some e → IsDigits digits := by
    intro digits f hmap
    rw [← natural?_isSome_iff]
    cases hn : Text.natural? digits with
    | none => simp [hn] at hmap
    | some n => rfl
  cases t with
  | nil => exact .nothing
  | cons mark rest =>
    rw [exponentPart?.eq_def] at h
    dsimp only at h
    split at h
    · rename_i hmark
      have hmark' : mark = 'e' ∨ mark = 'E' := by simpa using hmark
      split at h
      · exact .marked hmark' (.inr (.inl rfl)) (hdigits h)
      · exact .marked hmark' (.inr (.inr rfl)) (hdigits h)
      · exact .marked hmark' (.inl rfl) (hdigits h)
    · contradiction

/-- What follows the sign of a numeral is a decimal. -/
theorem exists_mantissa_of_unsigned? {negative : Bool} {t : Text} {n : Numeral}
    (h : unsigned? negative t = some n) :
    ∃ mantissa exponent, Literal.IsMantissa mantissa ∧ Literal.IsExponent exponent ∧
      t = mantissa ++ exponent := by
  obtain ⟨ht, hwhole, -⟩ := Text.run_iff (p := isAsciiDigit) (t := t).1 ⟨rfl, rfl⟩
  rw [unsigned?] at h
  dsimp only at h
  split at h
  · contradiction
  · rename_i hne
    have hdigits : IsDigits (t.takeWhile isAsciiDigit) := by
      refine ⟨fun hnil => hne ?_, hwhole⟩
      rw [hnil]
      rfl
    split at h
    · rename_i rest heq
      split at h
      · contradiction
      · obtain ⟨e, he, -⟩ := Option.map_eq_some_iff.1 h
        obtain ⟨hrest, hfraction, -⟩ := Text.run_iff (p := isAsciiDigit) (t := rest).1 ⟨rfl, rfl⟩
        refine ⟨_, _, .point hdigits hfraction, isExponent_of_exponentPart? he, ?_⟩
        rw [List.append_assoc, List.cons_append, ← hrest, ← heq, ← ht]
    · obtain ⟨e, he, -⟩ := Option.map_eq_some_iff.1 h
      exact ⟨_, _, .whole hdigits, isExponent_of_exponentPart? he, ht⟩

/-- Every numeral is a number literal. -/
theorem trimmed?_isSome_of_ofText? {t : Text} {n : Numeral} (h : ofText? t = some n) :
    (Literal.trimmed? t).isSome := by
  rw [Literal.trimmed?_isSome_iff]
  rw [ofText?.eq_def] at h
  split at h
  · obtain ⟨mantissa, exponent, hmantissa, hexponent, rfl⟩ := exists_mantissa_of_unsigned? h
    exact .inr ⟨['-'], _, .inr (.inr rfl), .decimal hmantissa hexponent, rfl⟩
  · obtain ⟨mantissa, exponent, hmantissa, hexponent, rfl⟩ := exists_mantissa_of_unsigned? h
    exact .inr ⟨[], _, .inl rfl, .decimal hmantissa hexponent, rfl⟩

/-! ### The characters of a numeral -/

theorem isNumberChar_of_isDecimalChar {c : Char} (h : Literal.isDecimalChar c = true) :
    isNumberChar c = true := by
  simp only [Literal.isDecimalChar, isNumberChar, Bool.or_eq_true] at h ⊢
  tauto

theorem isNumberChar_of_unsigned? {negative : Bool} {t : Text} {n : Numeral}
    (h : unsigned? negative t = some n) : ∀ c ∈ t, isNumberChar c = true := by
  obtain ⟨mantissa, exponent, hmantissa, hexponent, rfl⟩ := exists_mantissa_of_unsigned? h
  exact fun c hc =>
    isNumberChar_of_isDecimalChar (Literal.isDecimalChar_of_mem hmantissa hexponent hc)

/-- A numeral starts with a digit after its sign. -/
theorem isAsciiDigit_head_of_unsigned? {negative : Bool} {t : Text} {n : Numeral}
    (h : unsigned? negative t = some n) : ∃ c rest, t = c :: rest ∧ isAsciiDigit c = true := by
  cases t with
  | nil => simp [unsigned?] at h
  | cons c rest =>
    refine ⟨c, rest, rfl, ?_⟩
    by_contra hc
    rw [unsigned?, List.takeWhile_cons_of_neg hc] at h
    simp at h

/-- A numeral is made of characters of a number alone. -/
theorem isNumberChar_of_ofText? {t : Text} {n : Numeral} (h : ofText? t = some n) :
    ∀ c ∈ t, isNumberChar c = true := by
  rw [ofText?.eq_def] at h
  split at h
  · exact List.forall_mem_cons.2 ⟨by decide, isNumberChar_of_unsigned? h⟩
  · exact isNumberChar_of_unsigned? h

/-- A numeral starts with its sign or with a digit. -/
theorem head_of_ofText? {t : Text} {n : Numeral} (h : ofText? t = some n) :
    ∃ c rest, t = c :: rest ∧ (c = '-' ∨ isAsciiDigit c = true) := by
  rw [ofText?.eq_def] at h
  split at h
  · exact ⟨_, _, rfl, .inl rfl⟩
  · obtain ⟨c, rest, ht, hc⟩ := isAsciiDigit_head_of_unsigned? h
    exact ⟨c, rest, ht, .inr hc⟩

/-! ### Integers -/

theorem unsigned?_ofNat (negative : Bool) (n : Nat) :
    unsigned? negative (Text.ofNat n) = some ⟨negative, Text.ofNat n, [], none⟩ := by
  have hdigit : ∀ c ∈ Text.ofNat n, isAsciiDigit c = true :=
    fun _ => Text.isAsciiDigit_of_mem_ofNat
  -- A leading zero stands alone, because only zero itself has one.
  have hlead : ¬((Text.ofNat n).head? = some '0' ∧ 1 < (Text.ofNat n).length) := by
    rintro ⟨hzero, hlong⟩
    rcases Nat.eq_zero_or_pos n with rfl | hpos
    · exact absurd hlong (by decide)
    · exact Text.ofNat_head?_ne_zero hpos hzero
  rw [unsigned?, List.takeWhile_eq_self_iff.2 hdigit, List.dropWhile_eq_nil_iff.2 hdigit]
  dsimp only
  rw [if_neg (by simpa [Text.ofNat_ne_nil] using hlead), exponentPart?, Option.map_some]

/-- The text of an integer is a numeral. -/
theorem ofText?_integerText (i : Int) :
    ofText? (integerText i) = some ⟨decide (i < 0), Text.ofNat i.natAbs, [], none⟩ := by
  rw [integerText]
  by_cases hneg : i < 0
  · rw [if_pos hneg, ofText?, unsigned?_ofNat, decide_eq_true hneg]
  · obtain ⟨c, rest, hcons⟩ := List.exists_cons_of_ne_nil (Text.ofNat_ne_nil i.natAbs)
    have hminus : c ≠ '-' :=
      ne_of_isAsciiDigit (Text.isAsciiDigit_of_mem_ofNat (hcons ▸ List.mem_cons_self)) (by decide)
    have hunsigned := unsigned?_ofNat false i.natAbs
    rw [if_neg hneg, decide_eq_false hneg, ← hunsigned, hcons, ofText?]
    exact fun _ heq => hminus (List.cons.inj heq).1

/-- Appending a digit in base ten. -/
def appendDigit (n : Nat) (c : Char) : Nat := 10 * n + (c.toNat - '0'.toNat)

theorem le_foldl_appendDigit (digits : Text) (n : Nat) : n ≤ digits.foldl appendDigit n := by
  induction digits generalizing n with
  | nil => exact Nat.le_refl n
  | cons c digits ih =>
    have hstep : n ≤ appendDigit n c := by
      rw [appendDigit]
      omega
    exact Nat.le_trans hstep (ih _)

/-- Nothing is dropped as long as the number stays a word. -/
theorem collect_eq {digits : Text} {n : Nat} (h : digits.foldl appendDigit n < wordBound) :
    collect n digits = (digits.foldl appendDigit n, digits.length) := by
  induction digits generalizing n with
  | nil => rfl
  | cons c digits ih =>
    -- Further digits only make the number larger, so the test holds now if it holds at the end.
    have hnext : appendDigit n c < wordBound :=
      Nat.lt_of_le_of_lt (le_foldl_appendDigit digits _) h
    rw [appendDigit] at hnext
    rw [collect]
    dsimp only
    rw [if_pos hnext, ← appendDigit, ih h]
    rfl

theorem collect_ofNat {n : Nat} (h : n < wordBound) :
    collect 0 (Text.ofNat n) = (n, (Text.ofNat n).length) := by
  have hvalue : (Text.ofNat n).foldl appendDigit 0 = n := Text.toNat_ofNat n
  rw [collect_eq (hvalue.symm ▸ h), hvalue]

/-- An integer of 64 bits is the value of its numeral. -/
theorem value?_integer {i : Int} (h : isWord i = true) :
    value? ⟨decide (i < 0), Text.ofNat i.natAbs, [], none⟩ = some (.integer i) := by
  have hword : wordBound = 18446744073709551616 := rfl
  have hsigned : signedBound = 9223372036854775808 := rfl
  simp only [isWord, Bool.and_eq_true, decide_eq_true_eq] at h
  rw [value?, collect_ofNat (by omega)]
  dsimp only
  by_cases hneg : i < 0
  · have hpos : 0 < i.natAbs := by omega
    have hle : i.natAbs ≤ signedBound := by omega
    have hvalue : -(i.natAbs : Int) = i := by omega
    have hpositive : (0 < i.natAbs && i.natAbs ≤ signedBound) = true := by
      rw [Bool.and_eq_true, decide_eq_true_eq, decide_eq_true_eq]
      exact ⟨hpos, hle⟩
    rw [if_neg (by simp [hneg]), if_pos (by simpa using hpositive), hvalue]
  · have hvalue : (i.natAbs : Int) = i := by omega
    rw [if_pos (by simp [hneg]), hvalue]

end Numeral
end Json
end PullPlan
