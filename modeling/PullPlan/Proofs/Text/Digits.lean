import PullPlan.Text.Blank
import PullPlan.Text.Digit

/-!
# The digits of a natural number

`Text.ofNat` writes a natural number and `Text.toNat` reads it back (`Text.toNat_ofNat`). The digits
are ASCII digits, which lie in one range of printed characters and so are no blanks.

Where a number or a name is read off the front of a text, it is the longest run of characters of its
class; `Text.run_iff` says what that means for the text.
-/

namespace PullPlan

/-! ### Printed characters -/

/-- Whether a character is printed ASCII and not the space. -/
def isPrinted (c : Char) : Bool := 0x21 ≤ c.toNat && c.toNat ≤ 0x7E

theorem isBlank_of_isPrinted {c : Char} (h : isPrinted c = true) : isBlank c = false := by
  simp only [isPrinted, Bool.and_eq_true, decide_eq_true_eq] at h
  simp only [isBlank, blankRanges, List.any_cons, List.any_nil, Bool.or_false,
    Bool.or_eq_false_iff, Bool.and_eq_false_iff, decide_eq_false_iff_not]
  omega

theorem isAsciiDigit_iff {c : Char} : isAsciiDigit c = true ↔ 48 ≤ c.toNat ∧ c.toNat ≤ 57 := by
  simp only [isAsciiDigit, Bool.and_eq_true, decide_eq_true_eq]
  exact Iff.rfl

theorem isPrinted_of_isAsciiDigit {c : Char} (h : isAsciiDigit c = true) : isPrinted c = true := by
  rw [isAsciiDigit_iff] at h
  simp only [isPrinted, Bool.and_eq_true, decide_eq_true_eq]
  omega

theorem isBlank_of_isAsciiDigit {c : Char} (h : isAsciiDigit c = true) : isBlank c = false :=
  isBlank_of_isPrinted (isPrinted_of_isAsciiDigit h)

/-- A digit is no other given character. -/
theorem ne_of_isAsciiDigit {c d : Char} (h : isAsciiDigit c = true) (hd : isAsciiDigit d = false) :
    c ≠ d := by
  rintro rfl
  simp [h] at hd

theorem ne_of_isAsciiDigit_of_all {c : Char} (h : isAsciiDigit c = true) {t : Text}
    (ht : (t.all fun d => !isAsciiDigit d) = true) : ∀ d ∈ t, c ≠ d := fun d hd =>
  ne_of_isAsciiDigit h (Bool.not_eq_true' _ ▸ List.all_eq_true.1 ht d hd)

namespace Text

/-! ### Runs of characters -/

/-- A text is taken apart behind its longest run of characters of a class exactly where the class
ends. -/
theorem run_iff {p : Char → Bool} {t run rest : Text} :
    (t.takeWhile p = run ∧ t.dropWhile p = rest) ↔
      t = run ++ rest ∧ (∀ c ∈ run, p c = true) ∧ ∀ c, rest.head? = some c → p c = false := by
  constructor
  · rintro ⟨rfl, rfl⟩
    refine ⟨List.takeWhile_append_dropWhile.symm, List.all_eq_true.1 List.all_takeWhile, ?_⟩
    intro c hc
    have hhead := List.head?_dropWhile_not p t
    rw [hc] at hhead
    simpa using hhead
  · rintro ⟨rfl, hrun, hrest⟩
    have hstop : rest.takeWhile p = [] ∧ rest.dropWhile p = rest := by
      cases rest with
      | nil => exact ⟨rfl, rfl⟩
      | cons c rest =>
        have hc : ¬ p c = true := by simp [hrest c rfl]
        exact ⟨List.takeWhile_cons_of_neg hc, List.dropWhile_cons_of_neg hc⟩
    constructor
    · rw [List.takeWhile_append_of_pos hrun, hstop.1, List.append_nil]
    · rw [List.dropWhile_append_of_pos hrun, hstop.2]

/-! ### Writing and reading naturals -/

theorem ofNat_ne_nil (n : Nat) : ofNat n ≠ [] := Nat.toDigits_ne_nil

theorem isAsciiDigit_of_mem_ofNat {n : Nat} {c : Char} (h : c ∈ ofNat n) :
    isAsciiDigit c = true := by
  have hdigit : c.isDigit = true := Nat.isDigit_of_mem_toDigits (by decide) (by decide) h
  simp only [Char.isDigit, Bool.and_eq_true, decide_eq_true_eq] at hdigit
  exact isAsciiDigit_iff.2 hdigit

theorem isPrinted_of_mem_ofNat {n : Nat} {c : Char} (h : c ∈ ofNat n) : isPrinted c = true :=
  isPrinted_of_isAsciiDigit (isAsciiDigit_of_mem_ofNat h)

theorem toNat_ofNat (n : Nat) : toNat (ofNat n) = n := Nat.ofDigitChars_ten_toDigits

theorem ofNat_inj {m n : Nat} : ofNat m = ofNat n ↔ m = n := by
  constructor
  · intro h
    rw [← toNat_ofNat m, h, toNat_ofNat]
  · rintro rfl
    rfl

/-- Only zero is written with a leading zero. -/
theorem ofNat_head?_ne_zero {n : Nat} (h : 0 < n) : (ofNat n).head? ≠ some '0' := by
  induction n using Nat.strongRecOn with
  | ind n ih =>
    rw [ofNat, Nat.toDigits_eq_if (by decide)]
    split
    · rename_i hlt
      have hdigit : ∀ d : Fin 10, 0 < d.val → Nat.digitChar d.val ≠ '0' := by decide
      simpa using hdigit ⟨n, hlt⟩ h
    · have hdiv : 0 < n / 10 := by omega
      obtain ⟨c, front, hfront⟩ := List.exists_cons_of_ne_nil (ofNat_ne_nil (n / 10))
      have hhead := ih (n / 10) (by omega) hdiv
      rw [ofNat] at hfront
      rw [ofNat, hfront] at hhead
      rwa [hfront]

/-- Reading succeeds exactly on digits, of which there has to be one. -/
theorem natural?_eq_some_iff {t : Text} {n : Nat} :
    natural? t = some n ↔ t ≠ [] ∧ (∀ c ∈ t, isAsciiDigit c = true) ∧ toNat t = n := by
  simp [natural?, and_assoc]

end Text
end PullPlan
