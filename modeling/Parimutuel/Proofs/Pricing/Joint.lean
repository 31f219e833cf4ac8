import Mathlib.Algebra.BigOperators.Field
import Mathlib.Algebra.Order.BigOperators.Ring.Finset
import Mathlib.Algebra.Order.Field.Rat
import Mathlib.Tactic.FieldSimp
import Mathlib.Tactic.Linarith
import Mathlib.Tactic.Positivity
import Mathlib.Tactic.Ring
import Parimutuel.Proofs.Pricing.Sound

namespace Parimutuel

open Model (takenAt ownAt)

def portion (board : Board) (own : Int → Int) (i : Int) : ℚ := own i / (takenAt board i + own i)

-- What the stakers of option `i` share when it wins.
def pot (board : Board) (s : Strategy) (own : Int → Int) (i : Int) : ℚ :=
  board.keep * (board.total - takenAt board i + ∑ j ∈ grid.erase i, own j) / bpsScale +
    rewardValue board.reward s.unitValue

-- What the own stake on option `i` gains on average, and all of them together.
def gainOn (board : Board) (s : Strategy) (own : Int → Int) (i : Int) : ℚ :=
  (own i + portion board own i * pot board s own i) / optionCount - own i

def jointGain (board : Board) (s : Strategy) (own : Int → Int) : ℚ :=
  ∑ i ∈ grid, gainOn board s own i

-- What a unit on option `i` adds to the own stakes on the others.
def boost (board : Board) (own : Int → Int) (i : Int) : ℚ :=
  board.keep / bpsScale * ∑ j ∈ grid.erase i, portion board own j

def contribution (board : Board) (s : Strategy) (own : Int → Int) (i : Int) : ℚ :=
  (own i + portion board own i * pot board s own i + own i * boost board own i) / optionCount - own i

def overlap (board : Board) (own : Int → Int) : ℚ :=
  ∑ i ∈ grid, own i * boost board own i / optionCount

section Joint

variable {board : Board} {s : Strategy} {own : Int → Int} {i : Int}

theorem portion_congr {other : Int → Int} (same : own i = other i) :
    portion board own i = portion board other i := by
  rw [portion, portion, same]

theorem portion_of_zero (none : own i = 0) : portion board own i = 0 := by
  rw [portion, none, Int.cast_zero, zero_div]

theorem pot_update {j : Int} (member : i ∈ grid.erase j) :
    pot board s own j = pot board s (Function.update own i 0) j + board.keep * own i / bpsScale := by
  have others : ∑ m ∈ grid.erase j, own m =
      own i + ∑ m ∈ grid.erase j, Function.update own i 0 m := by
    rw [← Finset.add_sum_erase _ _ member, ← Finset.add_sum_erase _ (Function.update own i 0) member,
      Function.update_self, zero_add]
    congr 1
    apply Finset.sum_congr rfl
    intro m inside
    rw [Function.update_of_ne (Finset.ne_of_mem_erase inside)]
  rw [pot, pot, others]
  push_cast
  ring

theorem gainOn_of_zero (none : own i = 0) : gainOn board s own i = 0 := by
  rw [gainOn, portion_of_zero none, none, Int.cast_zero, zero_mul, add_zero, zero_div, sub_zero]

theorem gainOn_update {j : Int} (member : i ∈ grid) (other : j ≠ i) :
    gainOn board s own j = gainOn board s (Function.update own i 0) j +
      own i * (board.keep / bpsScale * portion board own j) / optionCount := by
  have kept : Function.update own i 0 j = own j := Function.update_of_ne other 0 own
  rw [gainOn, gainOn, portion_congr kept, kept, pot_update (Finset.mem_erase.2 ⟨other.symm, member⟩)]
  ring

theorem jointGain_update (board : Board) (s : Strategy) (own : Int → Int) (member : i ∈ grid) :
    jointGain board s own - jointGain board s (Function.update own i 0) =
      contribution board s own i := by
  have alone : Function.update own i 0 i = 0 := Function.update_self i 0 own
  have rest : ∑ j ∈ grid.erase i, gainOn board s own j =
      ∑ j ∈ grid.erase i, (gainOn board s (Function.update own i 0) j +
        own i * (board.keep / bpsScale * portion board own j) / optionCount) :=
    Finset.sum_congr rfl fun j inside => gainOn_update member (Finset.ne_of_mem_erase inside)
  rw [jointGain, jointGain, ← Finset.add_sum_erase grid _ member,
    ← Finset.add_sum_erase grid (gainOn board s (Function.update own i 0)) member, rest,
    Finset.sum_add_distrib, gainOn_of_zero alone, ← Finset.sum_div, ← Finset.mul_sum,
    ← Finset.mul_sum, gainOn, contribution, boost]
  ring

theorem jointGain_add_overlap (board : Board) (s : Strategy) (own : Int → Int) :
    jointGain board s own + overlap board own = ∑ i ∈ grid, contribution board s own i := by
  rw [jointGain, overlap, ← Finset.sum_add_distrib]
  apply Finset.sum_congr rfl
  intro i _
  rw [gainOn, contribution]
  ring

theorem cast_ediv_le (a : Int) {b : Int} (positive : 0 < b) : ((a / b : Int) : ℚ) ≤ a / b := by
  have divisor : (0 : ℚ) < b := Int.cast_pos.2 positive
  rw [le_div_iff₀ divisor]
  exact_mod_cast Int.ediv_mul_le a (Int.ne_of_gt positive)

end Joint

namespace Model

variable {m : Model} {own : Int → Int} {i : Int}

-- What is held on the other options is all that a prize and a cross term look at.
theorem Sound.prize_eq (sound : m.Sound) (member : i ∈ options)
    (same : ∀ j ∈ grid.erase i, own j = ownAt m.holdings j) :
    (m.quoteAt i).prize = m.board.keep * (m.board.total - takenAt m.board i +
      ∑ j ∈ grid.erase i, own j) / bpsScale + rewardValue m.board.reward m.strategy.unitValue := by
  have held : m.holdings.total - ownAt m.holdings i = ∑ j ∈ grid.erase i, own j := by
    have total : m.holdings.total = ∑ j ∈ grid, ownAt m.holdings j := sumOf_getD sound.width
    rw [total, ← Finset.add_sum_erase grid _ (mem_grid.2 member), add_sub_cancel_left]
    exact (Finset.sum_congr rfl same).symm
  rw [quoteAt, prizeAt, add_sub_assoc, held]

theorem Sound.prize_le_pot (sound : m.Sound) (member : i ∈ options)
    (same : ∀ j ∈ grid.erase i, own j = ownAt m.holdings j) :
    ((m.quoteAt i).prize : ℚ) ≤ pot m.board m.strategy own i := by
  have skimmed := cast_ediv_le (m.board.keep * (m.board.total - takenAt m.board i +
    ∑ j ∈ grid.erase i, own j)) (show 0 < bpsScale by decide)
  rw [sound.prize_eq member same, pot]
  push_cast at skimmed ⊢
  linarith

theorem shareAt_le_portion (valid : m.board.Valid) (same : own i = ownAt m.holdings i)
    (least : 0 ≤ own i) : (shareAt m.board m.holdings i : ℚ) ≤ wad * portion m.board own i := by
  have taken := takenAt_nonneg valid i
  rw [shareAt, portion, ← same]
  by_cases held : own i > 0
  · have part := cast_ediv_le (own i * wad) (show 0 < takenAt m.board i + own i by omega)
    rw [if_pos held, Int.fdiv_eq_ediv_of_nonneg _ (by omega)]
    calc (((own i * wad / (takenAt m.board i + own i) : Int)) : ℚ)
        ≤ (own i * wad : Int) / (takenAt m.board i + own i : Int) := part
      _ = wad * (own i / (takenAt m.board i + own i)) := by push_cast; ring
  · have none : own i = 0 := by omega
    rw [if_neg held, none, Int.cast_zero, zero_div, mul_zero]

theorem Sound.cross_le_boost (sound : m.Sound) (member : i ∈ options)
    (same : ∀ j ∈ grid.erase i, own j = ownAt m.holdings j) :
    ((m.quoteAt i).cross : ℚ) ≤ wad * boost m.board own i := by
  have keep : (0 : ℚ) ≤ m.board.keep := Int.cast_nonneg (keep_nonneg sound.board)
  have skimmed := cast_ediv_le (m.board.keep * ∑ j ∈ grid.erase i, shareAt m.board m.holdings j)
    (show 0 < bpsScale by decide)
  have shares : (∑ j ∈ grid.erase i, (shareAt m.board m.holdings j : ℚ)) ≤
      ∑ j ∈ grid.erase i, wad * portion m.board own j := by
    apply Finset.sum_le_sum
    intro j inside
    have least := ownAt_nonneg sound.held j
    exact shareAt_le_portion sound.board (same j inside) (same j inside ▸ least)
  have cross : (m.quoteAt i).cross = _ := crossAt_eq_sum m.board m.holdings member
  rw [cross, boost]
  push_cast at skimmed
  calc (((m.board.keep * ∑ j ∈ grid.erase i, shareAt m.board m.holdings j) / bpsScale : Int) : ℚ)
      ≤ m.board.keep * (∑ j ∈ grid.erase i, (shareAt m.board m.holdings j : ℚ)) / bpsScale := skimmed
    _ ≤ m.board.keep * (∑ j ∈ grid.erase i, wad * portion m.board own j) / bpsScale :=
      div_le_div_of_nonneg_right (mul_le_mul_of_nonneg_left shares keep)
        (Int.cast_nonneg (show 0 ≤ bpsScale by decide))
    _ = wad * (m.board.keep / bpsScale * ∑ j ∈ grid.erase i, portion m.board own j) := by
      rw [← Finset.mul_sum]
      ring

theorem Sound.payout_le (sound : m.Sound) (member : i ∈ options)
    (same : ∀ j ∈ grid.erase i, own j = ownAt m.holdings j) (staked : 0 < own i) :
    ((m.quoteAt i).payout (own i) : ℚ) ≤ wad * (own i +
      portion m.board own i * pot m.board m.strategy own i + own i * boost m.board own i) := by
  have taken : (m.quoteAt i).taken = takenAt m.board i := rfl
  have pooled : 0 < takenAt m.board i + own i := by
    have := takenAt_nonneg sound.board i
    omega
  have unit : (0 : ℚ) ≤ wad := Int.cast_nonneg (by decide)
  have stake : (0 : ℚ) ≤ own i := Int.cast_nonneg (Int.le_of_lt staked)
  have part : 0 ≤ portion m.board own i := div_nonneg stake (by exact_mod_cast Int.le_of_lt pooled)
  have prize := mul_le_mul_of_nonneg_left (sound.prize_le_pot member same) (mul_nonneg unit part)
  have cross := mul_le_mul_of_nonneg_left (sound.cross_le_boost member same) stake
  have share := cast_ediv_le (own i * (m.quoteAt i).prize * wad) pooled
  have exact : ((own i * (m.quoteAt i).prize * wad : Int) : ℚ) / (takenAt m.board i + own i : Int) =
      wad * portion m.board own i * (m.quoteAt i).prize := by
    rw [portion]
    push_cast
    ring
  rw [Quote.payout, taken, Int.fdiv_eq_ediv_of_nonneg _ (Int.le_of_lt pooled)]
  rw [exact] at share
  push_cast at share ⊢
  linarith

theorem Sound.value_le_contribution (sound : m.Sound) (member : i ∈ options)
    (same : ∀ j ∈ grid.erase i, own j = ownAt m.holdings j) (least : 0 ≤ own i) :
    ((m.quoteAt i).value (own i) : ℚ) ≤ contribution m.board m.strategy own i := by
  by_cases nothing : own i ≤ 0
  · have none : own i = 0 := by omega
    rw [Quote.value, if_pos nothing, contribution, portion_of_zero none, none]
    simp
  · have unit : (wad : ℚ) ≠ 0 := Int.cast_ne_zero.2 (by decide)
    have count : (0 : ℚ) < (optionCount * wad : Int) := Int.cast_pos.2 (by decide)
    have payout := sound.payout_le member same (Int.not_le.1 nothing)
    have mean := cast_ediv_le ((m.quoteAt i).payout (own i)) (show (0 : Int) < optionCount * wad by decide)
    have scaled := div_le_div_of_nonneg_right payout (le_of_lt count)
    rw [Quote.value, if_neg nothing, Quote.gain, contribution, Int.cast_sub]
    apply sub_le_sub_right
    calc (((m.quoteAt i).payout (own i) / (optionCount * wad) : Int) : ℚ)
        ≤ wad * (own i + portion m.board own i * pot m.board m.strategy own i +
            own i * boost m.board own i) / (optionCount * wad : Int) := le_trans mean scaled
      _ = (own i + portion m.board own i * pot m.board m.strategy own i +
            own i * boost m.board own i) / optionCount := by
        push_cast
        rw [mul_comm (optionCount : ℚ), mul_div_mul_left _ _ unit]

end Model
end Parimutuel
