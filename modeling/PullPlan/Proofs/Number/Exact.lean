import PullPlan.Number.Double
import PullPlan.Proofs.Number.Rounding

/-!
# Small naturals are exact

Every natural below 2^53 is a magnitude (`Magnitude.value_ofNat`), and as long as the results stay
below that bound, products and sums of such magnitudes are exact as well: the number to be rounded
is one that needs no rounding (`Magnitude.ofNat_mul`, `Magnitude.ofNat_addNat`). So an integer below
the bound is the value of a double, whatever the sign of its zero (`Double.value_of_toInt?`).
-/

namespace PullPlan

/-- The exact value of a finite double. -/
def Double.value (x : Double) : ℚ := if x.negative then -x.magnitude.value else x.magnitude.value

namespace Magnitude

/-! ### Naturals as magnitudes -/

theorem value_zero : zero.value = 0 := by
  have hsignificand : zero.significand = 0 := rfl
  rw [value, hsignificand, Nat.cast_zero, zero_mul]

/-- A significand of full length at an exponent that is not too large. -/
theorem exists_value_eq_mul {s : Nat} {e : Nat} (hlow : binadeSize ≤ s) (hhigh : s < 2 * binadeSize)
    (he : e ≤ 52) : ∃ m : Magnitude, m.value = s * 2 ^ ((e : Int) - 52) := by
  have hrank : (e + 1022) * binadeSize + s ≤ infinityRank := by
    unfold infinityRank
    rw [binadeSize_eq] at hhigh ⊢
    omega
  have hfull : ¬ (e + 1022) * binadeSize + s < binadeSize := by omega
  have hmod : binadeSize + ((e + 1022) * binadeSize + s) % binadeSize = s := by
    rw [binadeSize_eq] at hlow hhigh ⊢
    omega
  have hdiv : ((e + 1022) * binadeSize + s) / binadeSize = e + 1023 := by
    rw [binadeSize_eq] at hlow hhigh ⊢
    omega
  have hsignificand : significand ⟨_, hrank⟩ = s := (if_neg hfull).trans hmod
  have hexponent : exponent ⟨_, hrank⟩ = (e : Int) - 52 := by
    simp only [exponent, hdiv]
    omega
  exact ⟨⟨_, hrank⟩, by rw [value, hsignificand, hexponent]⟩

/-- A natural below 2^53 is a magnitude: its significand is its own digits, moved to full length. -/
theorem exists_value_eq {n : Nat} (h : n < 2 ^ 53) : ∃ m : Magnitude, m.value = n := by
  rcases Nat.eq_zero_or_pos n with rfl | hpos
  · exact ⟨zero, value_zero.trans Nat.cast_zero.symm⟩
  have hlog : n.log2 ≤ 52 := Nat.lt_succ_iff.1 ((Nat.log2_lt hpos.ne').2 h)
  have hlow : binadeSize ≤ n * 2 ^ (52 - n.log2) :=
    calc binadeSize = 2 ^ n.log2 * 2 ^ (52 - n.log2) := by
          rw [← pow_add, Nat.add_sub_cancel' hlog, binadeSize_eq]
          rfl
      _ ≤ n * 2 ^ (52 - n.log2) := Nat.mul_le_mul_right _ (Nat.log2_self_le hpos.ne')
  have hhigh : n * 2 ^ (52 - n.log2) < 2 * binadeSize :=
    calc n * 2 ^ (52 - n.log2) < 2 ^ (n.log2 + 1) * 2 ^ (52 - n.log2) :=
          Nat.mul_lt_mul_of_pos_right Nat.lt_log2_self (Nat.two_pow_pos _)
      _ = 2 * binadeSize := by
          rw [← pow_add, Nat.add_right_comm, Nat.add_sub_cancel' hlog, binadeSize_eq]
          rfl
  obtain ⟨m, hm⟩ := exists_value_eq_mul hlow hhigh hlog
  refine ⟨m, hm.trans ?_⟩
  push_cast
  rw [mul_assoc, ← zpow_natCast, ← zpow_add₀ (by norm_num)]
  have hcancel : ((52 - n.log2 : Nat) : Int) + ((n.log2 : Int) - 52) = 0 := by omega
  rw [hcancel, zpow_zero, mul_one]

theorem value_ofNat {n : Nat} (h : n < 2 ^ 53) : (ofNat n).value = n := by
  obtain ⟨m, hm⟩ := exists_value_eq h
  have hofNat : ofNat n = m := by
    refine ofRatio_eq_of_value Nat.one_pos ?_
    rw [Nat.cast_one, div_one, hm]
  rw [hofNat, hm]

/-- Infinity is numbered as if it were 2^1024. -/
theorem isInfinite_of_value_lt {m : Magnitude} (h : m.value < 2 ^ 53) : m.isInfinite = false := by
  by_contra hinfinite
  have hrank : m.rank = infinityRank := by simpa [isInfinite] using hinfinite
  obtain rfl : m = infinity := by
    cases m
    simpa [infinity] using hrank
  have hvalue : infinity.value = 2 ^ 52 * 2 ^ (972 : Int) := rfl
  have hlarge : (2 : ℚ) ^ 53 ≤ 2 ^ 52 * 2 ^ (972 : Int) := by
    rw [zpow_ofNat, ← pow_add]
    exact pow_le_pow_right₀ (by norm_num) (by norm_num)
  exact absurd h (not_lt.2 (hvalue ▸ hlarge))

theorem isInfinite_ofNat {n : Nat} (h : n < 2 ^ 53) : (ofNat n).isInfinite = false := by
  refine isInfinite_of_value_lt ?_
  rw [value_ofNat h]
  exact_mod_cast h

theorem toNat?_ofNat {n : Nat} (h : n < 2 ^ 53) : (ofNat n).toNat? = some n := by
  have hnumerator : (ofNat n).numerator = n * (ofNat n).denominator := by
    have hvalue := numerator_div_denominator (ofNat n)
    have hd : ((ofNat n).denominator : ℚ) ≠ 0 := by exact_mod_cast (denominator_pos _).ne'
    rw [value_ofNat h, div_eq_iff hd] at hvalue
    exact_mod_cast hvalue
  rw [toNat?, isInfinite_ofNat h, hnumerator, Nat.mul_mod_left,
    Nat.mul_div_cancel _ (denominator_pos _)]
  rfl

/-! ### Products and sums -/

theorem ofNat_mul {a b : Nat} (ha : a < 2 ^ 53) (hb : b < 2 ^ 53) (h : a * b < 2 ^ 53) :
    (ofNat a).mul (ofNat b) = ofNat (a * b) := by
  rw [mul, isInfinite_ofNat ha, isInfinite_ofNat hb, Bool.or_self, if_neg Bool.false_ne_true]
  refine ofRatio_eq_of_value (Nat.mul_pos (denominator_pos _) (denominator_pos _)) ?_
  push_cast
  rw [mul_div_mul_comm, numerator_div_denominator, numerator_div_denominator, value_ofNat ha,
    value_ofNat hb, value_ofNat h, Nat.cast_mul]

theorem ofNat_addNat {a d : Nat} (h : a + d < 2 ^ 53) : (ofNat a).addNat d = ofNat (a + d) := by
  have ha : a < 2 ^ 53 := (Nat.le_add_right a d).trans_lt h
  have hd : ((ofNat a).denominator : ℚ) ≠ 0 := by exact_mod_cast (denominator_pos _).ne'
  rw [addNat, isInfinite_ofNat ha, if_neg Bool.false_ne_true]
  refine ofRatio_eq_of_value (denominator_pos _) ?_
  push_cast
  rw [add_div, mul_div_cancel_right₀ _ hd, numerator_div_denominator, value_ofNat ha,
    value_ofNat h, Nat.cast_add]

end Magnitude

/-! ### Integers as doubles -/

namespace Double

theorem toInt?_ofNat (negative : Bool) {n : Nat} (h : n < 2 ^ 53) :
    toInt? ⟨negative, .ofNat n⟩ = some (if negative then -(n : Int) else n) := by
  rw [toInt?, Magnitude.toNat?_ofNat h]
  rfl

theorem exists_toNat?_of_toInt? {x : Double} {i : Int} (h : x.toInt? = some i) :
    ∃ n, x.magnitude.toNat? = some n ∧ i = if x.negative then -(n : Int) else n := by
  unfold toInt? at h
  cases hn : x.magnitude.toNat? with
  | none => simp [hn] at h
  | some n =>
    rw [hn] at h
    exact ⟨n, rfl, (Option.some.inj h).symm⟩

theorem value_of_toInt? {x : Double} {v : Int} (h : x.toInt? = some v) : x.value = v := by
  obtain ⟨n, hn, rfl⟩ := exists_toNat?_of_toInt? h
  rw [value, Magnitude.value_of_toNat? hn]
  split
  · rw [Int.cast_neg, Int.cast_natCast]
  · rw [Int.cast_natCast]

end Double
end PullPlan
