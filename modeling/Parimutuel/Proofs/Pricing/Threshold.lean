import Mathlib.Tactic.Linarith
import Parimutuel.Proofs.Pricing.Increments

namespace Parimutuel.Quote

variable {q : Quote} {x y : Int}

theorem first_nonpos_iff (staked : 0 < q.taken) :
    q.marginal 0 ≤ 0 ↔ q.prize * wad < q.taken * (24 * wad + 25 - q.cross) := by
  have square : 0 < q.taken * q.taken := Int.mul_pos staked staked
  have slope : q.slope (max 0 0) = q.prize * wad / q.taken := by
    have whole : q.taken + max 0 0 = q.taken := by omega
    rw [Quote.slope, if_pos staked, whole, Int.fdiv_eq_ediv_of_nonneg _ (Int.le_of_lt square),
      Int.mul_assoc, Int.mul_ediv_mul_of_pos _ _ staked]
  have bound : q.marginal 0 ≤ 0 ↔ q.prize * wad / q.taken < 24 * wad + 25 - q.cross := by
    rw [marginal, slope, optionCount_cast]
    omega
  rw [bound, Int.ediv_lt_iff_lt_mul staked, Int.mul_comm q.taken]

theorem value_nonpos_iff (taken : 0 ≤ q.taken) (positive : 1 ≤ x) :
    q.value x ≤ 0 ↔
      x * q.prize * wad < (q.taken + x) * (24 * wad * x + 25 * wad - x * q.cross) := by
  have pooled : 0 < q.taken + x := by omega
  have unit : (0 : Int) < optionCount * wad := by decide
  have mean : q.value x ≤ 0 ↔ q.payout x < (x + 1) * (optionCount * wad) := by
    rw [value, if_neg (Int.not_le.2 positive), gain, ← Int.ediv_lt_iff_lt_mul unit]
    omega
  rw [mean, payout, Int.fdiv_eq_ediv_of_nonneg _ (Int.le_of_lt pooled), Int.mul_comm (q.taken + x),
    ← Int.ediv_lt_iff_lt_mul pooled, optionCount_cast]
  constructor <;> intro below <;> linarith

theorem parabola_nonneg (x w : Int) : 0 ≤ 24 * (x * x) - 25 * (x * w) + 25 * (w * w) := by
  have first := mul_self_nonneg (48 * x - 25 * w)
  have second := mul_self_nonneg w
  linarith

-- The stake times what is hidden of its first unit, against what a value drops.
theorem hidden_le {t w : Int} (least : 0 ≤ t) (most : t ≤ w * w) (unit : 0 ≤ w) (positive : 0 ≤ x) :
    25 * (x * t) ≤ 25 * (w * t) + 24 * (w * (x * x)) + 25 * (w * x) := by
  have area : 0 ≤ w * (x * x) := Int.mul_nonneg unit (mul_self_nonneg x)
  have length : 0 ≤ w * x := Int.mul_nonneg unit positive
  rcases Int.le_total x w with small | large
  · have less := Int.mul_le_mul_of_nonneg_right small least
    linarith
  · have bounded := Int.mul_le_mul_of_nonneg_right most (Int.sub_nonneg_of_le large)
    have curve := Int.mul_nonneg unit (parabola_nonneg x w)
    linarith

theorem value_nonpos_of_first (staked : 0 < q.taken) (most : q.taken ≤ wad * wad) (alone : q.cross = 0)
    (poor : q.marginal 0 ≤ 0) (positive : 1 ≤ x) : q.value x ≤ 0 := by
  have prize := (first_nonpos_iff staked).1 poor
  have hidden := hidden_le (Int.le_of_lt staked) most (Int.le_of_lt wad_pos) (Int.le_of_lt positive)
  rw [value_nonpos_iff (Int.le_of_lt staked) positive, alone]
  rw [alone] at prize
  calc x * q.prize * wad
      = x * (q.prize * wad) := Int.mul_assoc x q.prize wad
    _ < x * (q.taken * (24 * wad + 25 - 0)) := Int.mul_lt_mul_of_pos_left prize positive
    _ ≤ (q.taken + x) * (24 * wad * x + 25 * wad - x * 0) := by linarith

-- Four times as much from others, and the rounding does hide a unit.
example : (⟨4 * (wad * wad), 4 * wad * (24 * wad + 25) - 1, 0⟩ : Quote).marginal 0 = 0 ∧
    (⟨4 * (wad * wad), 4 * wad * (24 * wad + 25) - 1, 0⟩ : Quote).value (2 * wad) = 1 := by
  decide

theorem value_antitone_of_unstaked (unstaked : q.taken = 0) (cross : q.cross ≤ maxCross) (positive : 1 ≤ x)
    (order : x ≤ y) : q.value y ≤ q.value x := by
  have weightless : q.weight = 0 := by rw [weight, unstaked, Int.zero_mul, Int.zero_mul]
  have area : 0 ≤ q.span x y := Int.mul_nonneg (by omega) (by omega)
  have steep : q.weight ≤ q.bar 0 * q.span x y := by
    rw [weightless, bar_of_nonneg q (Int.le_refl 0)]
    exact Int.mul_nonneg (hurdle_nonneg cross) area
  exact value_falls (by omega) (by omega) order steep

end Parimutuel.Quote
