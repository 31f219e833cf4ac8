import Mathlib.Tactic.Linarith
import Mathlib.Tactic.Ring
import Parimutuel.Proofs.Pricing.Growth
import Parimutuel.Proofs.Pricing.Peak

namespace Parimutuel.Quote

variable {q : Quote} {x y rise rate units : Int}

def part (q : Quote) (stake : Int) : Int := stake * q.prize * wad / (q.taken + stake)

def span (q : Quote) (x y : Int) : Int := (q.taken + x) * (q.taken + y)

theorem payout_eq_part (q : Quote) {stake : Int} (pooled : 0 ≤ q.taken + stake) :
    q.payout stake = stake * wad + q.part stake + stake * q.cross := by
  rw [payout, part, Int.fdiv_eq_ediv_of_nonneg _ pooled]

-- The exact growth of the part, free of divisions.
theorem part_rise (q : Quote) (x y : Int) :
    y * q.prize * wad * (q.taken + x) = x * q.prize * wad * (q.taken + y) + q.weight * (y - x) := by
  rw [weight]
  ring

theorem part_add_le (pooled : 0 < q.taken + x) (order : x ≤ y) (below : rise * q.span x y ≤ q.weight) :
    q.part x + rise * (y - x) ≤ q.part y := by
  have wider : 0 < q.taken + y := by omega
  have whole := Int.ediv_mul_le (x * q.prize * wad) (Int.ne_of_gt pooled)
  have scaled := Int.mul_le_mul_of_nonneg_right whole (Int.le_of_lt wider)
  have stretch := Int.mul_le_mul_of_nonneg_right below (Int.sub_nonneg_of_le order)
  have exact := part_rise q x y
  rw [span] at stretch
  apply (Int.le_ediv_iff_mul_le wider).2
  apply Int.le_of_mul_le_mul_right _ pooled
  rw [part]
  linarith

theorem part_le_add (pooled : 0 < q.taken + x) (order : x ≤ y) (above : q.weight ≤ rise * q.span x y) :
    q.part y ≤ q.part x + rise * (y - x) := by
  have wider : 0 < q.taken + y := by omega
  have whole := Int.lt_ediv_add_one_mul_self (x * q.prize * wad) pooled
  have scaled := Int.mul_lt_mul_of_pos_right whole wider
  have stretch := Int.mul_le_mul_of_nonneg_right above (Int.sub_nonneg_of_le order)
  have exact := part_rise q x y
  rw [span] at stretch
  apply Int.le_of_lt_add_one
  apply (Int.ediv_lt_iff_lt_mul wider).2
  apply Int.lt_of_mul_lt_mul_right _ (Int.le_of_lt pooled)
  rw [part]
  linarith

-- A bar is 25 times its rate above what a unit costs in all 25 cases.
theorem payout_add_le (pooled : 0 < q.taken + x) (order : x ≤ y)
    (below : q.bar rate * q.span x y ≤ q.weight) :
    q.payout x + (y - x) * (optionCount * (rate + wad)) ≤ q.payout y := by
  have grown := part_add_le pooled order below
  rw [payout_eq_part q (by omega), payout_eq_part q (by omega)]
  rw [bar] at grown
  linarith

theorem payout_le_add (pooled : 0 < q.taken + x) (order : x ≤ y)
    (above : q.weight ≤ q.bar rate * q.span x y) :
    q.payout y ≤ q.payout x + (y - x) * (optionCount * (rate + wad)) := by
  have grown := part_le_add pooled order above
  rw [payout_eq_part q (by omega), payout_eq_part q (by omega)]
  rw [bar] at grown
  linarith

theorem mean_add (a : Int) (n : Int) : (a + n * (optionCount * wad)) / (optionCount * wad) =
    a / (optionCount * wad) + n :=
  Int.add_mul_ediv_right a n (by decide)

theorem gain_add_le (pooled : 0 < q.taken + x) (order : x ≤ y)
    (below : q.bar rate * q.span x y ≤ q.weight) (whole : units * wad ≤ (y - x) * rate) :
    q.gain x + units ≤ q.gain y := by
  have paid : q.payout x + (units + (y - x)) * (optionCount * wad) ≤ q.payout y := by
    have more := payout_add_le pooled order below
    rw [optionCount_cast] at more ⊢
    linarith
  have mean := Int.ediv_le_ediv (show (0 : Int) < optionCount * wad by decide) paid
  rw [mean_add] at mean
  rw [gain, gain]
  omega

theorem gain_le_add (pooled : 0 < q.taken + x) (order : x ≤ y)
    (above : q.weight ≤ q.bar rate * q.span x y) (whole : (y - x) * rate ≤ units * wad) :
    q.gain y ≤ q.gain x + units := by
  have paid : q.payout y ≤ q.payout x + (units + (y - x)) * (optionCount * wad) := by
    have more := payout_le_add pooled order above
    rw [optionCount_cast] at more ⊢
    linarith
  have mean := Int.ediv_le_ediv (show (0 : Int) < optionCount * wad by decide) paid
  rw [mean_add] at mean
  rw [gain, gain]
  omega

theorem value_eq_gain (q : Quote) (least : 0 ≤ x) : q.value x = q.gain x := by
  rcases Int.lt_or_eq_of_le least with positive | rfl
  · exact if_neg (Int.not_le.2 positive)
  · simp [value, gain, payout]

-- A stretch on which the part grows by no more than a unit costs is not worth going.
theorem value_falls (least : 0 ≤ x) (pooled : 0 < q.taken + x) (order : x ≤ y)
    (above : q.weight ≤ q.bar 0 * q.span x y) : q.value y ≤ q.value x := by
  have free : (y - x) * 0 ≤ 0 * wad := by rw [Int.mul_zero, Int.zero_mul]
  have lost := gain_le_add pooled order above free
  rw [value_eq_gain q least, value_eq_gain q (Int.le_trans least order)]
  omega

theorem slope_antitone (taken : 0 ≤ q.taken) (prize : 0 ≤ q.prize) (least : 0 ≤ x) (order : x ≤ y) :
    q.slope y ≤ q.slope x := by
  rcases Int.lt_or_eq_of_le taken with staked | nobody
  · have small : 0 < (q.taken + x) * (q.taken + x) := Int.mul_pos (by omega) (by omega)
    have large : 0 < (q.taken + y) * (q.taken + y) := Int.mul_pos (by omega) (by omega)
    have squares : (q.taken + x) * (q.taken + x) ≤ (q.taken + y) * (q.taken + y) :=
      Int.mul_le_mul (by omega) (by omega) (by omega) (by omega)
    rw [slope_eq taken, slope_eq taken]
    exact ediv_le_ediv_of_cross large small
      (Int.mul_le_mul_of_nonneg_left squares (weight_nonneg taken prize)) (Int.le_of_lt small)
  · simp [slope, nobody.symm]

theorem marginal_antitone (taken : 0 ≤ q.taken) (prize : 0 ≤ q.prize) (order : x ≤ y) :
    q.marginal y ≤ q.marginal x := by
  have falls := slope_antitone taken prize (Int.le_max_left 0 x) (show max 0 x ≤ max 0 y by omega)
  have mean := Int.ediv_le_ediv (show (0 : Int) < optionCount by decide)
    (show wad + q.slope (max 0 y) + q.cross ≤ wad + q.slope (max 0 x) + q.cross by omega)
  unfold marginal
  omega

theorem bar_marginal_span_le (taken : 0 ≤ q.taken) (prize : 0 ≤ q.prize) (least : 0 ≤ x)
    (pooled : 0 < q.taken + x) (order : x ≤ y) : q.bar (q.marginal y) * q.span x y ≤ q.weight := by
  have wider : 0 < q.taken + y := by omega
  calc q.bar (q.marginal y) * q.span x y
      ≤ q.slope y * q.span x y :=
        Int.mul_le_mul_of_nonneg_right ((bar_le_slope_iff (Int.le_trans least order)).2 (Int.le_refl _))
          (Int.le_of_lt (Int.mul_pos pooled wider))
    _ ≤ q.slope y * ((q.taken + y) * (q.taken + y)) :=
        Int.mul_le_mul_of_nonneg_left
          (Int.mul_le_mul_of_nonneg_right (Int.add_le_add_left order _) (Int.le_of_lt wider))
          (slope_nonneg taken prize y)
    _ ≤ q.weight := by
        rw [slope_eq taken]
        exact Int.ediv_mul_le _ (Int.ne_of_gt (Int.mul_pos wider wider))

-- And none by more than at its start, of which the slope leaves out less than one.
theorem le_bar_marginal_span (taken : 0 ≤ q.taken) (prize : 0 ≤ q.prize) (least : 0 ≤ x)
    (pooled : 0 < q.taken + x) (order : x ≤ y) :
    q.weight ≤ q.bar (q.marginal x + 1) * q.span x y := by
  have wider : 0 < q.taken + y := by omega
  have dearer : q.slope x < q.bar (q.marginal x + 1) := by
    apply Int.not_le.1
    intro reached
    exact Int.not_le.2 (Int.lt_succ _) ((bar_le_slope_iff least).1 reached)
  calc q.weight
      ≤ (q.slope x + 1) * ((q.taken + x) * (q.taken + x)) := by
        rw [slope_eq taken]
        exact Int.le_of_lt (Int.lt_ediv_add_one_mul_self _ (Int.mul_pos pooled pooled))
    _ ≤ (q.slope x + 1) * q.span x y :=
        Int.mul_le_mul_of_nonneg_left
          (Int.mul_le_mul_of_nonneg_left (Int.add_le_add_left order _) (Int.le_of_lt pooled))
          (Int.le_trans (slope_nonneg taken prize x) (Int.le_of_lt (Int.lt_succ _)))
    _ ≤ q.bar (q.marginal x + 1) * q.span x y :=
        Int.mul_le_mul_of_nonneg_right dearer (Int.le_of_lt (Int.mul_pos pooled wider))

end Parimutuel.Quote
