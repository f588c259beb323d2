import PullPlan.Json.Printer
import PullPlan.Proofs.Number.Grammar
import PullPlan.Proofs.Number.Rounding
import PullPlan.Proofs.Text.Trim

/-!
# Which texts are number literals

`Literal.number?_eq_none` rules out texts by their first character: what starts like a JSON text
that is no number is no literal. `Literal.number?_integerText` reads back what `Json.integerText`
writes, for integers below 2^53, which are doubles.
-/

namespace PullPlan

namespace Literal

/-! ### Texts that are no literals -/

/-- Whether a literal may start with a character. -/
def startsLiteral (c : Char) : Bool :=
  isAsciiDigit c || c = '-' || c = '+' || c = '.' || c = 'I'

theorem IsLiteral.startsLiteral {c : Char} {t : Text} (h : IsLiteral (c :: t)) :
    Literal.startsLiteral c = true := by
  generalize ht : c :: t = literal at h
  cases h with
  | nothing => contradiction
  | based h =>
    cases h
    obtain rfl := (List.cons.inj ht).1
    decide
  | signed hsign h =>
    obtain ⟨d, rest, rfl, hd⟩ := h.exists_cons
    rcases hsign with rfl | rfl | rfl <;> obtain rfl := (List.cons.inj ht).1
    · rcases hd with hd | rfl | rfl
      · simp [Literal.startsLiteral, hd]
      · decide
      · decide
    · decide
    · decide

/-- A text whose first character starts no literal and is not blank is no number. -/
theorem number?_eq_none {c : Char} {t : Text} (hblank : isBlank c = false)
    (h : startsLiteral c = false) : number? (c :: t) = none := by
  have htrim : ∃ rest, Text.trim (c :: t) = c :: rest := by
    rw [Text.trim, Text.trimStart_eq_self (by rintro _ ⟨⟩; exact hblank), Text.trimEnd]
    split
    · exact ⟨[], by simp [hblank]⟩
    · exact ⟨_, rfl⟩
  obtain ⟨rest, hrest⟩ := htrim
  rw [← Option.not_isSome_iff_eq_none, number?_isSome_iff, hrest]
  intro hliteral
  rw [hliteral.startsLiteral] at h
  contradiction

/-! ### Integers -/

theorem isDigits_ofNat (n : Nat) : IsDigits (Text.ofNat n) :=
  ⟨Text.ofNat_ne_nil n, fun _ => Text.isAsciiDigit_of_mem_ofNat⟩

/-- Decimal digits alone are read as the number that they write. -/
theorem unsigned?_of_isDigits {t : Text} (h : IsDigits t) :
    unsigned? t = some (.ofDecimal (Text.toNat t) 0) := by
  have hname : t ≠ "Infinity".toList := by
    rintro rfl
    exact absurd (h.2 'I' (by decide)) (by decide)
  have hrest : ∀ c, ([] : Text).head? = some c → isAsciiDigit c = false ∧ c ≠ '.' := nofun
  have hdecimal := decimal?_append h.2 hrest
  rw [List.append_nil, if_neg h.1] at hdecimal
  rw [unsigned?, if_neg hname, hdecimal]
  rfl

theorem isUnsigned_of_isDigits {t : Text} (h : IsDigits t) : IsUnsigned t :=
  List.append_nil t ▸ .decimal (.whole h) .nothing

/-- Decimal digits behind a sign are read as the number that they write. -/
theorem trimmed?_of_isDigits {sign t : Text} (hsign : IsSign sign) (h : IsDigits t) :
    trimmed? (sign ++ t)
      = some ⟨decide (sign = ['-']), .ofDecimal (Text.toNat t) 0⟩ := by
  rw [trimmed?_signed hsign (fun _ _ hc => h.head_ne_sign hc)
    (base?_signed hsign (isUnsigned_of_isDigits h)), unsigned?_of_isDigits h, Option.map_some]

theorem ofDecimal_natural {n : Nat} (h : n < 2 ^ 53) : Magnitude.ofDecimal n 0 = .ofRatio n 1 := by
  have hlength : (Nat.toDigits 10 n).length ≤ 16 :=
    (Nat.length_toDigits_le_iff (by decide) (by decide)).2 (h.trans (by decide))
  rw [Magnitude.ofDecimal]
  split
  · rename_i hzero
    rw [Magnitude.ofRatio, if_pos hzero]
  · dsimp only
    rw [if_neg (by omega), if_neg (by omega)]
    simp

/-- The text of an integer has neither point nor exponent. -/
theorem mem_integerText {i : Int} {c : Char} (h : c ∈ Json.integerText i) :
    c = '-' ∨ isAsciiDigit c = true := by
  unfold Json.integerText at h
  split at h
  · exact (List.mem_cons.1 h).imp_right Text.isAsciiDigit_of_mem_ofNat
  · exact .inr (Text.isAsciiDigit_of_mem_ofNat h)

theorem isPrinted_of_mem_integerText {i : Int} {c : Char} (h : c ∈ Json.integerText i) :
    isPrinted c = true := by
  rcases mem_integerText h with rfl | h
  · decide
  · exact isPrinted_of_isAsciiDigit h

theorem integerText_ne_nil (i : Int) : Json.integerText i ≠ [] := by
  rw [Json.integerText]
  split
  · exact List.cons_ne_nil _ _
  · exact Text.ofNat_ne_nil _

/-- An integer below 2^53 is read back as the double that it is. -/
theorem number?_integerText {i : Int} (h : i.natAbs < 2 ^ 53) :
    number? (Json.integerText i)
      = some ⟨decide (i < 0), .ofRatio i.natAbs 1⟩ := by
  have htrim : Text.trim (Json.integerText i) = Json.integerText i :=
    Text.trim_eq_self
      (fun c hc => isBlank_of_isPrinted (isPrinted_of_mem_integerText (List.mem_of_head? hc)))
      (fun c hc => isBlank_of_isPrinted (isPrinted_of_mem_integerText (List.mem_of_getLast? hc)))
  rw [number?, htrim]
  simp only [List.isEmpty_eq_false_iff.2 (integerText_ne_nil i), Bool.false_eq_true, ↓reduceIte]
  rw [Json.integerText]
  by_cases hneg : i < 0
  · have hvalue := trimmed?_of_isDigits (.inr (.inr rfl)) (isDigits_ofNat i.natAbs)
    rw [Text.toNat_ofNat, ofDecimal_natural h] at hvalue
    rw [if_pos hneg, decide_eq_true hneg]
    exact hvalue
  · have hvalue := trimmed?_of_isDigits (.inl rfl) (isDigits_ofNat i.natAbs)
    rw [Text.toNat_ofNat, ofDecimal_natural h] at hvalue
    rw [if_neg hneg, decide_eq_false hneg]
    exact hvalue

end Literal
end PullPlan
