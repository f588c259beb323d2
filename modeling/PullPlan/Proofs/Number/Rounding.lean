import Mathlib.Algebra.Order.Field.Basic
import Mathlib.Algebra.Order.Field.Power
import Mathlib.Data.Nat.Cast.Field
import Mathlib.Data.Rat.Cast.Order
import Mathlib.Tactic.Linarith
import Mathlib.Tactic.NormNum
import Mathlib.Tactic.Positivity
import PullPlan.Number.Magnitude

/-!
# Rounding what is exact

The exact value of a finite magnitude is the rational number `Magnitude.value`. Rounding a quotient
which has that value gives the magnitude back (`Magnitude.ofRatio_eq_of_value`), because the
exponent found by `floorLog2` is the one of the significand (`floorLog2_eq`) and the division on
that grid leaves no remainder. So integers below 2^53, which all are magnitudes, are read without
rounding (`Magnitude.ofRatio_eq_of_toNat?`).
-/

namespace PullPlan

/-! ### The binary logarithm of a quotient -/

/-- The comparison in `floorLog2` compares the quotient with a power of two. -/
theorem mul_two_pow_lt_iff {p q : Nat} (hq : 0 < q) (g : Int) :
    p * 2 ^ (-g).toNat < q * 2 ^ g.toNat ↔ (p : ℚ) / q < 2 ^ g := by
  have hq' : (0 : ℚ) < q := by exact_mod_cast hq
  rw [div_lt_iff₀ hq']
  obtain ⟨n, rfl | rfl⟩ := g.eq_nat_or_neg
  · rw [zpow_natCast, mul_comm ((2 : ℚ) ^ n)]
    simp only [Int.toNat_natCast, Int.toNat_neg_natCast, pow_zero, mul_one]
    exact_mod_cast Iff.rfl
  · have hpow : (0 : ℚ) < 2 ^ n := by positivity
    rw [zpow_neg, zpow_natCast, inv_mul_eq_div, lt_div_iff₀ hpow]
    simp only [neg_neg, Int.toNat_natCast, Int.toNat_neg_natCast, pow_zero, mul_one]
    exact_mod_cast Iff.rfl

/-- Both parts of a quotient lie between neighbouring powers of two, and so does the quotient. -/
theorem log2_sub_log2_bounds {p q : Nat} (hp : 0 < p) (hq : 0 < q) :
    (2 : ℚ) ^ ((p.log2 : Int) - q.log2 - 1) < (p : ℚ) / q ∧
      (p : ℚ) / q < 2 ^ ((p.log2 : Int) - q.log2 + 1) := by
  have hq' : (0 : ℚ) < q := by exact_mod_cast hq
  have hplo : (2 : ℚ) ^ p.log2 ≤ p := by exact_mod_cast Nat.log2_self_le hp.ne'
  have hphi : (p : ℚ) < 2 ^ (p.log2 + 1) := by exact_mod_cast Nat.lt_log2_self
  have hqlo : (2 : ℚ) ^ q.log2 ≤ q := by exact_mod_cast Nat.log2_self_le hq.ne'
  have hqhi : (q : ℚ) < 2 ^ (q.log2 + 1) := by exact_mod_cast Nat.lt_log2_self
  constructor
  · rw [lt_div_iff₀ hq']
    calc (2 : ℚ) ^ ((p.log2 : Int) - q.log2 - 1) * q
        < 2 ^ ((p.log2 : Int) - q.log2 - 1) * 2 ^ (q.log2 + 1) := by
          have : (0 : ℚ) < 2 ^ ((p.log2 : Int) - q.log2 - 1) := by positivity
          exact mul_lt_mul_of_pos_left hqhi this
      _ = 2 ^ p.log2 := by
          rw [← zpow_natCast, ← zpow_natCast, ← zpow_add₀ (by norm_num)]
          congr 1
          omega
      _ ≤ p := hplo
  · rw [div_lt_iff₀ hq']
    calc (p : ℚ) < 2 ^ (p.log2 + 1) := hphi
      _ = 2 ^ ((p.log2 : Int) - q.log2 + 1) * 2 ^ q.log2 := by
          rw [← zpow_natCast, ← zpow_natCast, ← zpow_add₀ (by norm_num)]
          congr 1
          omega
      _ ≤ 2 ^ ((p.log2 : Int) - q.log2 + 1) * q := by
          have : (0 : ℚ) ≤ 2 ^ ((p.log2 : Int) - q.log2 + 1) := by positivity
          exact mul_le_mul_of_nonneg_left hqlo this

/-- `floorLog2` is the exponent of the largest power of two that is at most the quotient. -/
theorem floorLog2_eq {p q : Nat} (hp : 0 < p) (hq : 0 < q) {k : Int}
    (hlo : (2 : ℚ) ^ k ≤ (p : ℚ) / q) (hhi : (p : ℚ) / q < 2 ^ (k + 1)) : floorLog2 p q = k := by
  obtain ⟨hlo', hhi'⟩ := log2_sub_log2_bounds hp hq
  have hle : k < (p.log2 : Int) - q.log2 + 1 :=
    (zpow_lt_zpow_iff_right₀ (by norm_num : (1 : ℚ) < 2)).1 (hlo.trans_lt hhi')
  have hge : (p.log2 : Int) - q.log2 - 1 < k + 1 :=
    (zpow_lt_zpow_iff_right₀ (by norm_num : (1 : ℚ) < 2)).1 (hlo'.trans hhi)
  show (if p * 2 ^ (-((p.log2 : Int) - q.log2)).toNat < q * 2 ^ ((p.log2 : Int) - q.log2).toNat
    then (p.log2 : Int) - q.log2 - 1 else (p.log2 : Int) - q.log2) = k
  split
  · rename_i h
    rw [mul_two_pow_lt_iff hq] at h
    have hlt : k < (p.log2 : Int) - q.log2 :=
      (zpow_lt_zpow_iff_right₀ (by norm_num : (1 : ℚ) < 2)).1 (hlo.trans_lt h)
    omega
  · rename_i h
    rw [mul_two_pow_lt_iff hq, not_lt] at h
    have hlt : (p.log2 : Int) - q.log2 < k + 1 :=
      (zpow_lt_zpow_iff_right₀ (by norm_num : (1 : ℚ) < 2)).1 (h.trans_lt hhi)
    omega

/-- A division that leaves no remainder is not rounded. -/
theorem roundDiv_mul (s : Nat) {d : Nat} (hd : 0 < d) : roundDiv (s * d) d = s := by
  simp [roundDiv, Nat.mul_div_cancel _ hd, hd]

namespace Magnitude

/-! ### The exact value -/

/-- The exact value of a finite magnitude. -/
def value (m : Magnitude) : ℚ := m.significand * 2 ^ m.exponent

theorem numerator_eq (m : Magnitude) : m.numerator = m.significand * 2 ^ m.exponent.toNat := rfl

theorem denominator_eq (m : Magnitude) : m.denominator = 2 ^ (-m.exponent).toNat := rfl

theorem binadeSize_eq : binadeSize = 4503599627370496 := rfl

theorem denominator_pos (m : Magnitude) : 0 < m.denominator := Nat.two_pow_pos _

theorem numerator_div_denominator (m : Magnitude) :
    (m.numerator : ℚ) / m.denominator = m.value := by
  rw [value, numerator_eq, denominator_eq, div_eq_iff (by positivity)]
  obtain ⟨n, h | h⟩ := m.exponent.eq_nat_or_neg
  · simp [h]
  · simp [h]

/-- A magnitude is counted by its exponent and its significand. -/
theorem rank_eq (m : Magnitude) :
    m.rank = (m.exponent + 1074).toNat * binadeSize + m.significand := by
  rw [exponent, significand]
  rw [binadeSize_eq]
  split <;> omega

/-- The exponent is the smallest one, or the significand has its full length. -/
theorem exponent_eq_or_le_significand (m : Magnitude) :
    m.exponent = -1074 ∨ (-1074 ≤ m.exponent ∧ binadeSize ≤ m.significand) := by
  rw [exponent, significand]
  rw [binadeSize_eq]
  split <;> omega

theorem significand_lt (m : Magnitude) : m.significand < 2 * binadeSize := by
  rw [significand]
  rw [binadeSize_eq]
  split <;> omega

/-! ### Rounding -/

/-- The grid on which a quotient is rounded is the one of its value, where that is exact. -/
theorem max_floorLog2_eq {m : Magnitude} {p q : Nat} (hp : 0 < p) (hq : 0 < q)
    (h : (p : ℚ) / q = m.value) : max (-1074) (floorLog2 p q - 52) = m.exponent := by
  have hq' : (0 : ℚ) < q := by exact_mod_cast hq
  have hp' : (0 : ℚ) < p := by exact_mod_cast hp
  have hpos : 0 < m.significand := by
    by_contra hzero
    have hzero' : m.significand = 0 := by omega
    rw [value, hzero', Nat.cast_zero, zero_mul] at h
    exact absurd h (by positivity)
  have hlog : floorLog2 p q = m.significand.log2 + m.exponent := by
    have hlo : (2 : ℚ) ^ m.significand.log2 ≤ m.significand := by
      exact_mod_cast Nat.log2_self_le hpos.ne'
    have hhi : (m.significand : ℚ) < 2 ^ (m.significand.log2 + 1) := by
      exact_mod_cast Nat.lt_log2_self
    have hexp : (0 : ℚ) < 2 ^ m.exponent := by positivity
    refine floorLog2_eq hp hq ?_ ?_
    · rw [h, value, zpow_add₀ (by norm_num), zpow_natCast]
      exact mul_le_mul_of_nonneg_right hlo hexp.le
    · rw [h, value, add_right_comm, zpow_add₀ (by norm_num)]
      exact mul_lt_mul_of_pos_right (by exact_mod_cast hhi) hexp
  have hlt : m.significand.log2 < 53 := by
    rw [Nat.log2_lt hpos.ne']
    exact m.significand_lt
  rw [hlog]
  rcases m.exponent_eq_or_le_significand with hexp | ⟨hexp, hfull⟩
  · omega
  · have hge : 52 ≤ m.significand.log2 := (Nat.le_log2 hpos.ne').2 hfull
    omega

/-- Rounding a quotient whose value is a magnitude gives that magnitude. -/
theorem ofRatio_eq_of_value {m : Magnitude} {p q : Nat} (hq : 0 < q)
    (h : (p : ℚ) / q = m.value) : ofRatio p q = m := by
  have hq' : (0 : ℚ) < q := by exact_mod_cast hq
  have hcross : p * m.denominator = m.numerator * q := by
    have hd : (m.denominator : ℚ) ≠ 0 := by exact_mod_cast m.denominator_pos.ne'
    rw [← numerator_div_denominator, div_eq_div_iff hq'.ne' hd] at h
    exact_mod_cast h
  rcases Nat.eq_zero_or_pos p with rfl | hp
  · -- The quotient is zero, and so is the magnitude.
    have hnum : m.numerator = 0 := by
      have hzero : m.numerator * q = 0 := by rw [← hcross, Nat.zero_mul]
      exact (Nat.mul_eq_zero.1 hzero).resolve_right hq.ne'
    have hsig : m.significand = 0 :=
      (Nat.mul_eq_zero.1 hnum).resolve_right (Nat.two_pow_pos _).ne'
    have hrank : m.rank = 0 := by
      rw [significand] at hsig
      rw [binadeSize_eq] at hsig
      split at hsig <;> omega
    obtain ⟨rank, hle⟩ := m
    obtain rfl : rank = 0 := hrank
    rfl
  · have hgrid := max_floorLog2_eq hp hq h
    have hround : roundDiv (p * 2 ^ (-m.exponent).toNat) (q * 2 ^ m.exponent.toNat)
        = m.significand := by
      have hdenom : 0 < q * 2 ^ m.exponent.toNat := Nat.mul_pos hq (Nat.two_pow_pos _)
      have hexact : p * 2 ^ (-m.exponent).toNat
          = m.significand * (q * 2 ^ m.exponent.toNat) := by
        rw [numerator_eq, denominator_eq] at hcross
        rw [hcross, Nat.mul_assoc, Nat.mul_comm (2 ^ m.exponent.toNat)]
      rw [hexact, roundDiv_mul _ hdenom]
    rw [ofRatio, if_neg hp.ne']
    dsimp only
    simp only [hgrid, Nat.pow_eq, hround, ← rank_eq]
    obtain ⟨rank, hle⟩ := m
    congr 1
    exact Nat.min_eq_left hle

theorem value_of_toNat? {m : Magnitude} {n : Nat} (h : m.toNat? = some n) : m.value = n := by
  rw [toNat?] at h
  split at h
  · contradiction
  · rename_i hexact
    obtain rfl := Option.some.inj h
    simp only [Bool.or_eq_true, not_or, bne_iff_ne, ne_eq, not_not] at hexact
    have hdvd : m.denominator ∣ m.numerator := Nat.dvd_of_mod_eq_zero hexact.2
    have hd : (m.denominator : ℚ) ≠ 0 := by exact_mod_cast m.denominator_pos.ne'
    rw [← numerator_div_denominator, Nat.cast_div hdvd hd]

/-- A magnitude that is a natural number is what that number rounds to. -/
theorem ofRatio_eq_of_toNat? {m : Magnitude} {n : Nat} (h : m.toNat? = some n) :
    ofRatio n 1 = m := by
  refine ofRatio_eq_of_value Nat.one_pos ?_
  rw [value_of_toNat? h, Nat.cast_one, div_one]

end Magnitude
end PullPlan
