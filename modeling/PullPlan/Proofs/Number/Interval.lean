import Mathlib.Tactic.Ring
import PullPlan.Number.Shortest
import PullPlan.Proofs.Number.Rounding

/-!
# Rounding intervals

The numbers that round to a magnitude form an interval (`Magnitude.Attracts`), with its ends if the
significand is even. The interval of one magnitude ends where that of the next one begins
(`lowerEnd_eq_upperEnd`), and of two neighbours only one has an even significand, so a number lies
in one interval at most (`eq_of_attracts`).

The decimal that `Magnitude.shortest` finds lies in the interval (`shortest_attracts`): each grid
point it considers does, and on the finest grid there is always one.
-/

namespace PullPlan
namespace Magnitude

/-- A quarter of a unit in the last place, in which the ends of the interval are integers. -/
def quarter (m : Magnitude) : ℚ := 2 ^ (m.exponent - 2)

/-- Where the interval of a magnitude begins. -/
def lowerEnd (m : Magnitude) : ℚ := m.lowerQuarters * m.quarter

/-- Where the interval of a magnitude ends. -/
def upperEnd (m : Magnitude) : ℚ := m.upperQuarters * m.quarter

/-- Whether a number lies in the interval of a magnitude. -/
def Attracts (m : Magnitude) (q : ℚ) : Prop :=
  if m.significand % 2 = 0 then m.lowerEnd ≤ q ∧ q ≤ m.upperEnd
  else m.lowerEnd < q ∧ q < m.upperEnd

theorem quarter_pos (m : Magnitude) : 0 < m.quarter := by
  unfold quarter
  positivity

theorem lowerQuarters_lt_upperQuarters (m : Magnitude) : m.lowerQuarters < m.upperQuarters := by
  unfold lowerQuarters upperQuarters
  split <;> omega

theorem lowerEnd_lt_upperEnd (m : Magnitude) : m.lowerEnd < m.upperEnd := by
  have hlt : (m.lowerQuarters : ℚ) < m.upperQuarters := by
    exact_mod_cast m.lowerQuarters_lt_upperQuarters
  exact mul_lt_mul_of_pos_right hlt m.quarter_pos

theorem Attracts.bounds {m : Magnitude} {q : ℚ} (h : m.Attracts q) :
    m.lowerEnd ≤ q ∧ q ≤ m.upperEnd := by
  unfold Attracts at h
  split at h
  · exact h
  · exact ⟨h.1.le, h.2.le⟩

/-- An end belongs to the interval of an even significand alone. -/
theorem Attracts.even_of_eq_end {m : Magnitude} {q : ℚ} (h : m.Attracts q)
    (hend : q = m.lowerEnd ∨ q = m.upperEnd) : m.significand % 2 = 0 := by
  unfold Attracts at h
  split at h
  · assumption
  · rcases hend with rfl | rfl
    · exact absurd h.1 (lt_irrefl _)
    · exact absurd h.2 (lt_irrefl _)

/-! ### Neighbours -/

theorem significand_mod_two (m : Magnitude) : m.significand % 2 = m.rank % 2 := by
  unfold significand
  rw [binadeSize_eq]
  split <;> omega

/-- The ends of two neighbours in quarters: either they share an exponent, or the upper one is the
first with a larger exponent. -/
theorem lowerQuarters_of_rank_eq {m m' : Magnitude} (h : m'.rank = m.rank + 1) :
    (m'.exponent = m.exponent ∧ m'.lowerQuarters = m.upperQuarters) ∨
      (m'.exponent = m.exponent + 1 ∧ 2 * m'.lowerQuarters = m.upperQuarters) := by
  unfold exponent lowerQuarters upperQuarters quarters significand
  rw [binadeSize_eq, h]
  split <;> split <;> split <;> omega

theorem lowerEnd_eq_upperEnd {m m' : Magnitude} (h : m'.rank = m.rank + 1) :
    m'.lowerEnd = m.upperEnd := by
  unfold lowerEnd upperEnd quarter
  rcases lowerQuarters_of_rank_eq h with ⟨hexp, hends⟩ | ⟨hexp, hends⟩
  · rw [hexp, hends]
  · have hexp' : m'.exponent - 2 = m.exponent - 2 + 1 := by omega
    have hends' : (m.upperQuarters : ℚ) = 2 * m'.lowerQuarters := by exact_mod_cast hends.symm
    rw [hexp', hends', zpow_add₀ (by norm_num)]
    ring

/-- The intervals follow each other in the order of the magnitudes. -/
theorem upperEnd_le_lowerEnd {m m' : Magnitude} (h : m.rank < m'.rank) :
    m.upperEnd ≤ m'.lowerEnd := by
  obtain ⟨d, hd⟩ : ∃ d, m'.rank = m.rank + 1 + d := ⟨m'.rank - (m.rank + 1), by omega⟩
  -- Induction on how many magnitudes lie between the two.
  induction d generalizing m' with
  | zero => exact (lowerEnd_eq_upperEnd hd).ge
  | succ d ih =>
    have hle : m.rank + 1 + d ≤ infinityRank := by
      have := m'.rank_le
      omega
    let before : Magnitude := ⟨m.rank + 1 + d, hle⟩
    have hbefore : m.rank < before.rank := by
      show m.rank < m.rank + 1 + d
      omega
    have hlast : m'.lowerEnd = before.upperEnd := lowerEnd_eq_upperEnd hd
    calc m.upperEnd ≤ before.lowerEnd := ih hbefore rfl
      _ ≤ before.upperEnd := before.lowerEnd_lt_upperEnd.le
      _ = m'.lowerEnd := hlast.symm

/-- Two magnitudes that attract one number are not in order. -/
theorem not_rank_lt_of_attracts {m m' : Magnitude} {q : ℚ} (h : m.Attracts q)
    (h' : m'.Attracts q) : ¬ m.rank < m'.rank := by
  intro hlt
  have hle := upperEnd_le_lowerEnd hlt
  -- Between the two ends there is just the number, so it is both of them.
  have hupper : q = m.upperEnd := le_antisymm h.bounds.2 (hle.trans h'.bounds.1)
  have hlower : q = m'.lowerEnd := le_antisymm (hupper.le.trans hle) h'.bounds.1
  have heven := h.even_of_eq_end (.inr hupper)
  have heven' := h'.even_of_eq_end (.inl hlower)
  rw [significand_mod_two] at heven heven'
  -- Both are even, so there is a magnitude in between, whose interval has no room.
  have hnext : m.rank + 1 < m'.rank := by omega
  have hle' : m.rank + 1 ≤ infinityRank := hnext.le.trans m'.rank_le
  let next : Magnitude := ⟨m.rank + 1, hle'⟩
  have hroom : next.upperEnd ≤ m'.lowerEnd := upperEnd_le_lowerEnd hnext
  have hstart : next.lowerEnd = m.upperEnd := lowerEnd_eq_upperEnd rfl
  have hopen := next.lowerEnd_lt_upperEnd
  rw [hstart, ← hupper] at hopen
  rw [← hlower] at hroom
  exact absurd (hopen.trans_le hroom) (lt_irrefl _)

/-- **A number rounds to one magnitude at most.** -/
theorem eq_of_attracts {m m' : Magnitude} {q : ℚ} (h : m.Attracts q) (h' : m'.Attracts q) :
    m = m' := by
  have hrank : m.rank = m'.rank := by
    have := not_rank_lt_of_attracts h h'
    have := not_rank_lt_of_attracts h' h
    omega
  cases m
  cases m'
  simpa using hrank

/-- Zero rounds to zero. -/
theorem zero_attracts {m : Magnitude} (h : m.rank = 0) : m.Attracts 0 := by
  have hsig : m.significand = 0 := by
    unfold significand
    rw [binadeSize_eq, h]
    rfl
  have hlower : m.lowerEnd = 0 := by
    have hquarters : m.lowerQuarters = 0 := by
      unfold lowerQuarters quarters
      rw [hsig]
      split <;> rfl
    rw [lowerEnd, hquarters, Nat.cast_zero, zero_mul]
  have hupper : 0 ≤ m.upperEnd := hlower ▸ m.lowerEnd_lt_upperEnd.le
  unfold Attracts
  rw [if_pos (by rw [hsig])]
  exact ⟨hlower.le, hupper⟩

/-! ### Grid points -/

/-- A power splits into the powers of the positive and of the negative part of its exponent. -/
theorem pow_toNat_eq {b : ℚ} (hb : b ≠ 0) (k : Int) :
    b ^ k.toNat = b ^ k * b ^ (-k).toNat := by
  rw [← zpow_natCast, ← zpow_natCast, ← zpow_add₀ hb]
  congr 1
  omega

/-- Comparing a grid point with a number of quarters, with the fractions cleared. -/
theorem mul_perPoint_le_iff (m : Magnitude) (k : Int) (point quarters : Nat) :
    (point * (10 ^ k.toNat * 2 ^ (-(m.exponent - 2)).toNat)
        ≤ quarters * (2 ^ (m.exponent - 2).toNat * 10 ^ (-k).toNat)
      ↔ (point : ℚ) * 10 ^ k ≤ quarters * m.quarter) ∧
    (quarters * (2 ^ (m.exponent - 2).toNat * 10 ^ (-k).toNat)
        ≤ point * (10 ^ k.toNat * 2 ^ (-(m.exponent - 2)).toNat)
      ↔ (quarters : ℚ) * m.quarter ≤ point * 10 ^ k) := by
  have hten := pow_toNat_eq (b := 10) (by norm_num) k
  have htwo := pow_toNat_eq (b := 2) (by norm_num) (m.exponent - 2)
  -- The sides of the left comparisons are those of the right ones times this factor.
  have hcommon : (0 : ℚ) < 10 ^ (-k).toNat * 2 ^ (-(m.exponent - 2)).toNat := by positivity
  have hpoint : ((point * (10 ^ k.toNat * 2 ^ (-(m.exponent - 2)).toNat) : Nat) : ℚ)
      = (point * 10 ^ k) * (10 ^ (-k).toNat * 2 ^ (-(m.exponent - 2)).toNat) := by
    push_cast
    rw [hten]
    ring
  have hquarters : ((quarters * (2 ^ (m.exponent - 2).toNat * 10 ^ (-k).toNat) : Nat) : ℚ)
      = (quarters * m.quarter) * (10 ^ (-k).toNat * 2 ^ (-(m.exponent - 2)).toNat) := by
    push_cast
    rw [htwo, quarter]
    ring
  constructor
  · rw [← Nat.cast_le (α := ℚ), hpoint, hquarters, mul_le_mul_iff_left₀ hcommon]
  · rw [← Nat.cast_le (α := ℚ), hpoint, hquarters, mul_le_mul_iff_left₀ hcommon]

/-- The test of `gridPoint?`: whether a grid point lies in the interval. -/
theorem roundsBack_iff (m : Magnitude) (k : Int) (point : Nat) :
    (if m.significand % 2 == 0 then
        decide (m.lowerQuarters * (2 ^ (m.exponent - 2).toNat * 10 ^ (-k).toNat)
            ≤ point * (10 ^ k.toNat * 2 ^ (-(m.exponent - 2)).toNat))
          && decide (point * (10 ^ k.toNat * 2 ^ (-(m.exponent - 2)).toNat)
            ≤ m.upperQuarters * (2 ^ (m.exponent - 2).toNat * 10 ^ (-k).toNat))
      else
        decide (m.lowerQuarters * (2 ^ (m.exponent - 2).toNat * 10 ^ (-k).toNat)
            < point * (10 ^ k.toNat * 2 ^ (-(m.exponent - 2)).toNat))
          && decide (point * (10 ^ k.toNat * 2 ^ (-(m.exponent - 2)).toNat)
            < m.upperQuarters * (2 ^ (m.exponent - 2).toNat * 10 ^ (-k).toNat))) = true
      ↔ m.Attracts (point * 10 ^ k) := by
  obtain ⟨hbelow, habove⟩ := mul_perPoint_le_iff m k point m.lowerQuarters
  obtain ⟨hbelow', habove'⟩ := mul_perPoint_le_iff m k point m.upperQuarters
  unfold Attracts
  by_cases heven : m.significand % 2 = 0
  · rw [if_pos (by simpa using heven), if_pos heven, Bool.and_eq_true, decide_eq_true_eq,
      decide_eq_true_eq, habove, hbelow']
    rfl
  · rw [if_neg (by simpa using heven), if_neg heven, Bool.and_eq_true, decide_eq_true_eq,
      decide_eq_true_eq, ← not_le, ← not_le, hbelow, habove', not_le, not_le]
    rfl

/-- A grid point that stands for a magnitude lies in its interval. -/
theorem attracts_of_gridPoint? {m : Magnitude} {k : Int} {point : Nat}
    (h : m.gridPoint? k = some point) : m.Attracts (point * 10 ^ k) := by
  unfold gridPoint? at h
  simp only [Nat.pow_eq] at h
  split at h
  · rename_i hbelow habove
    split at h
    · obtain rfl := Option.some.inj h
      exact (roundsBack_iff m k _).1 hbelow
    · obtain rfl := Option.some.inj h
      exact (roundsBack_iff m k _).1 habove
  · rename_i hbelow habove
    obtain rfl := Option.some.inj h
    exact (roundsBack_iff m k _).1 hbelow
  · rename_i hbelow habove
    obtain rfl := Option.some.inj h
    exact (roundsBack_iff m k _).1 habove
  · contradiction

/-- If the next grid point above the value lies in the interval, a grid point is found. -/
theorem gridPoint?_isSome {m : Magnitude} {k : Int}
    (h : m.Attracts ((m.quarters * (2 ^ (m.exponent - 2).toNat * 10 ^ (-k).toNat)
      / (10 ^ k.toNat * 2 ^ (-(m.exponent - 2)).toNat) + 1 : Nat) * 10 ^ k)) :
    ∃ point, m.gridPoint? k = some point := by
  have habove := (roundsBack_iff m k _).2 h
  unfold gridPoint?
  simp only [Nat.pow_eq]
  split
  · split
    · exact ⟨_, rfl⟩
    · exact ⟨_, rfl⟩
  · exact ⟨_, rfl⟩
  · exact ⟨_, rfl⟩
  · rename_i hnot
    rw [habove] at hnot
    contradiction

/-! ### The shortest decimal -/

theorem lowerQuarters_le_quarters (m : Magnitude) : m.lowerQuarters ≤ m.quarters := by
  unfold lowerQuarters
  split <;> omega

theorem le_exponent (m : Magnitude) : -1074 ≤ m.exponent := by
  unfold exponent
  omega

theorem attracts_of_lt {m : Magnitude} {q : ℚ} (hlower : m.lowerEnd < q) (hupper : q < m.upperEnd) :
    m.Attracts q := by
  unfold Attracts
  split
  · exact ⟨hlower.le, hupper.le⟩
  · exact ⟨hlower, hupper⟩

/-- The points of the finest grid are closer to each other than two quarters, also for the smallest
magnitudes. -/
theorem finest_perPoint_lt (m : Magnitude) :
    10 ^ (-330 : Int).toNat * 2 ^ (-(m.exponent - 2)).toNat
      < 2 * (2 ^ (m.exponent - 2).toNat * 10 ^ (-(-330) : Int).toNat) := by
  have hexp := m.le_exponent
  have hlength : (-(m.exponent - 2)).toNat ≤ 33 * 33 := by omega
  have hfinest : (-(-330) : Int).toNat = 10 * 33 := rfl
  calc 10 ^ (-330 : Int).toNat * 2 ^ (-(m.exponent - 2)).toNat
      = 2 ^ (-(m.exponent - 2)).toNat := Nat.one_mul _
    _ ≤ (2 ^ 33) ^ 33 := by
      rw [← pow_mul]
      exact pow_le_pow_right₀ (by norm_num) hlength
    _ < (10 ^ 10) ^ 33 := Nat.pow_lt_pow_left (by decide) (by decide)
    _ = 10 ^ (-(-330) : Int).toNat := by rw [hfinest, pow_mul]
    _ ≤ 2 ^ (m.exponent - 2).toNat * 10 ^ (-(-330) : Int).toNat :=
      Nat.le_mul_of_pos_left _ (Nat.two_pow_pos _)
    _ ≤ 2 * (2 ^ (m.exponent - 2).toNat * 10 ^ (-(-330) : Int).toNat) :=
      Nat.le_mul_of_pos_left _ (by decide)

/-- On the finest grid a point is found for every magnitude. -/
theorem finest_gridPoint? (m : Magnitude) : ∃ point, m.gridPoint? (-330) = some point := by
  apply gridPoint?_isSome
  have hclose := m.finest_perPoint_lt
  have hlower := m.lowerQuarters_le_quarters
  set perPoint := 10 ^ (-330 : Int).toNat * 2 ^ (-(m.exponent - 2)).toNat with hperPoint
  set perQuarter := 2 ^ (m.exponent - 2).toNat * 10 ^ (-(-330) : Int).toNat with hperQuarter
  have hpos : 0 < perPoint := by positivity
  -- The point above the value is at most one step away from it.
  have habove : m.quarters * perQuarter < (m.quarters * perQuarter / perPoint + 1) * perPoint := by
    rw [Nat.mul_comm _ perPoint]
    exact Nat.lt_mul_div_succ _ hpos
  have hstep : (m.quarters * perQuarter / perPoint + 1) * perPoint
      < m.upperQuarters * perQuarter := by
    have hdiv := Nat.div_mul_le_self (m.quarters * perQuarter) perPoint
    have hupper : m.upperQuarters * perQuarter = m.quarters * perQuarter + 2 * perQuarter := by
      rw [upperQuarters, Nat.add_mul]
    rw [Nat.add_mul, Nat.one_mul]
    omega
  have hbelow : m.lowerQuarters * perQuarter
      < (m.quarters * perQuarter / perPoint + 1) * perPoint :=
    (Nat.mul_le_mul_right perQuarter hlower).trans_lt habove
  apply attracts_of_lt
  · exact not_le.1 fun h => absurd ((mul_perPoint_le_iff m (-330) _ _).1.2 h) hbelow.not_ge
  · exact not_le.1 fun h => absurd ((mul_perPoint_le_iff m (-330) _ _).2.2 h) hstep.not_ge

/-- **The shortest decimal of a magnitude lies in its interval.** -/
theorem shortest_attracts (m : Magnitude) :
    m.Attracts (m.shortest.digits * 10 ^ m.shortest.exponent) := by
  -- The search goes from coarse grids to fine ones and ends at the finest one at the latest.
  have hfound : ∃ d, ((List.range 640).findSome? fun (i : Nat) =>
      (m.gridPoint? (309 - i)).map fun point => Decimal.mk point (309 - i)) = some d := by
    rw [← Option.isSome_iff_exists, List.findSome?_isSome_iff]
    obtain ⟨point, hpoint⟩ := m.finest_gridPoint?
    have hfinest : (309 : Int) - (639 : Nat) = -330 := by omega
    refine ⟨639, List.mem_range.2 (by omega), ?_⟩
    rw [hfinest, hpoint, Option.map_some, Option.isSome_some]
  obtain ⟨d, hd⟩ := hfound
  have hshortest : m.shortest = d := by
    unfold shortest
    rw [hd]
    rfl
  obtain ⟨i, -, hi⟩ := List.exists_of_findSome?_eq_some hd
  obtain ⟨point, hpoint, rfl⟩ := Option.map_eq_some_iff.1 hi
  rw [hshortest]
  exact attracts_of_gridPoint? hpoint

/-- The shortest decimal of a positive magnitude is positive: zero is too far away. -/
theorem shortest_digits_pos {m : Magnitude} (h : 0 < m.rank) : 0 < m.shortest.digits := by
  refine Nat.pos_of_ne_zero fun hzero => ?_
  have hattracts := m.shortest_attracts
  rw [hzero, Nat.cast_zero, zero_mul] at hattracts
  have heq : m = zero := eq_of_attracts hattracts (zero_attracts rfl)
  rw [heq] at h
  exact absurd h (lt_irrefl _)

end Magnitude
end PullPlan
