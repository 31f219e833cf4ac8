import Parimutuel.Proofs.Pricing.Growth
import Parimutuel.Proofs.Pricing.Increments

namespace Parimutuel.Quote

variable {q r : Quote} {price x y : Int}

theorem staked_of_peak (taken : 0 ≤ q.taken) (positive : 1 ≤ q.peak price) : 0 < q.taken := by
  rcases Int.lt_or_eq_of_le taken with staked | nobody
  · exact staked
  · simp [peak, nobody.symm] at positive

theorem bar_le_clampedHurdle (q : Quote) (free : 0 ≤ price) : q.bar price ≤ q.clampedHurdle price := by
  rw [bar_of_nonneg q free]
  exact hurdle_le_clampedHurdle q price

-- On the way to the peak for a price no stretch grows the prize part by less than that price asks.
theorem bar_span_le (taken : 0 ≤ q.taken) (prize : 0 ≤ q.prize) (free : 0 ≤ price) (least : 0 ≤ x)
    (positive : 1 ≤ y) (order : x ≤ y) (below : y ≤ q.peak price) :
    q.bar price * q.span x y ≤ q.weight := by
  have shorter : q.taken + x ≤ q.taken + y := by omega
  have far : 0 ≤ q.taken + y := by omega
  have area : 0 ≤ q.span x y := Int.mul_nonneg (by omega) far
  calc q.bar price * q.span x y
      ≤ q.clampedHurdle price * q.span x y :=
        Int.mul_le_mul_of_nonneg_right (bar_le_clampedHurdle q free) area
    _ ≤ q.clampedHurdle price * ((q.taken + y) * (q.taken + y)) :=
        Int.mul_le_mul_of_nonneg_left (Int.mul_le_mul_of_nonneg_right shorter far)
          (Int.le_of_lt (clampedHurdle_pos q price))
    _ ≤ q.weight := (le_peak_iff taken prize positive).1 below

theorem value_ascends (taken : 0 ≤ q.taken) (prize : 0 ≤ q.prize) (free : 0 ≤ price) (least : 0 ≤ x)
    (order : x ≤ y) (below : y ≤ q.peak price) : q.value x ≤ q.value y := by
  rcases Int.lt_or_eq_of_le order with more | rfl
  · have positive : 1 ≤ y := by omega
    have staked := staked_of_peak taken (Int.le_trans positive below)
    have steep := bar_span_le taken prize free least positive order below
    have earned : 0 * wad ≤ (y - x) * price := by
      rw [Int.zero_mul]
      exact Int.mul_nonneg (Int.sub_nonneg_of_le order) free
    have gained := gain_add_le (Int.add_pos_of_pos_of_nonneg staked least) order steep earned
    rw [value_eq_gain q least, value_eq_gain q (Int.le_of_lt positive)]
    omega
  · exact Int.le_refl _

theorem Below.peak (below : q.Below r) (taken : 0 ≤ q.taken) (prize : 0 ≤ q.prize) (price : Int) :
    q.peak price ≤ r.peak price := by
  have cross := below.cross
  apply peak_le_peak taken prize (Int.le_trans prize below.prize) below.taken
  · unfold clampedHurdle hurdle
    omega
  · rw [weight, weight, ← below.taken]
    exact Int.mul_le_mul_of_nonneg_right (Int.mul_le_mul_of_nonneg_left below.prize taken)
      (Int.le_of_lt wad_pos)

end Parimutuel.Quote
