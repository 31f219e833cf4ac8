import Mathlib.Algebra.Order.BigOperators.Group.Finset
import Mathlib.Algebra.Order.Ring.Int
import Parimutuel.Proofs.Pricing.Sound

namespace Parimutuel

theorem le_floorRoot_iff (k n : Nat) : k ≤ floorRoot n ↔ k * k ≤ n := by
  constructor
  · intro below
    exact Nat.le_trans (Nat.mul_le_mul below below) (floorRoot_sq_le n)
  · intro square
    apply Nat.le_of_not_lt
    intro above
    have next : floorRoot n + 1 ≤ k := above
    have wider := Nat.mul_le_mul next next
    have := lt_succ_floorRoot_sq n
    omega

theorem optionCount_cast : ((optionCount : Nat) : Int) = 25 := rfl

theorem wad_pos : 0 < wad := by decide

namespace Quote

variable {q : Quote}

def weight (q : Quote) : Int := q.taken * q.prize * wad

theorem clampedHurdle_pos (q : Quote) (price : Int) : 0 < q.clampedHurdle price := by
  unfold clampedHurdle
  omega

theorem hurdle_le_clampedHurdle (q : Quote) (price : Int) : q.hurdle price ≤ q.clampedHurdle price :=
  Int.le_max_right 1 _

theorem clampedHurdle_of_pos {price : Int} (above : 1 ≤ q.hurdle price) :
    q.clampedHurdle price = q.hurdle price :=
  Int.max_eq_right above

theorem peak_nonneg (q : Quote) (price : Int) : 0 ≤ q.peak price := by
  unfold peak
  split
  · exact Int.le_refl 0
  · exact Int.le_max_left 0 _

theorem pooled_sq_pos {x : Int} (taken : 0 ≤ q.taken) (positive : 1 ≤ x) :
    0 < (q.taken + x) * (q.taken + x) :=
  Int.mul_pos (by omega) (by omega)

theorem le_peak_iff (taken : 0 ≤ q.taken) (prize : 0 ≤ q.prize) {price x : Int} (positive : 1 ≤ x) :
    x ≤ q.peak price ↔ q.clampedHurdle price * ((q.taken + x) * (q.taken + x)) ≤ q.weight := by
  have divisor := clampedHurdle_pos q price
  have pooled := pooled_sq_pos taken positive
  unfold peak
  by_cases nothing : q.taken = 0 ∨ q.prize = 0
  · have empty : q.weight = 0 := by
      rcases nothing with none | none <;> simp [weight, none]
    have above := Int.mul_pos divisor pooled
    rw [if_pos nothing, empty]
    omega
  · have square := peakSquare_nonneg price taken prize
    have quotient : q.peakSquare price = q.weight / q.clampedHurdle price :=
      Int.fdiv_eq_ediv_of_nonneg _ (Int.le_of_lt divisor)
    obtain ⟨all, same⟩ := Int.eq_ofNat_of_zero_le (show 0 ≤ q.taken + x by omega)
    have root : x ≤ max 0 (floorRoot (q.peakSquare price).toNat - q.taken) ↔
        all ≤ floorRoot (q.peakSquare price).toNat := by omega
    have squared : (all * all ≤ (q.peakSquare price).toNat) ↔
        (q.taken + x) * (q.taken + x) ≤ q.peakSquare price := by
      rw [same, ← Int.natCast_mul]
      omega
    rw [if_neg nothing, root, le_floorRoot_iff, squared, quotient, Int.le_ediv_iff_mul_le divisor,
      Int.mul_comm]

theorem peak_le_peak {r : Quote} {price other : Int} (taken : 0 ≤ q.taken) (prize : 0 ≤ q.prize)
    (more : 0 ≤ r.prize) (same : q.taken = r.taken)
    (eased : r.clampedHurdle other ≤ q.clampedHurdle price) (grown : q.weight ≤ r.weight) :
    q.peak price ≤ r.peak other := by
  by_cases nothing : q.peak price < 1
  · have := peak_nonneg r other
    omega
  · have positive := Int.not_lt.1 nothing
    have within := (le_peak_iff taken prize positive).1 (Int.le_refl _)
    rw [le_peak_iff (same ▸ taken) more positive, ← same]
    calc r.clampedHurdle other * ((q.taken + q.peak price) * (q.taken + q.peak price))
        ≤ q.clampedHurdle price * ((q.taken + q.peak price) * (q.taken + q.peak price)) :=
          Int.mul_le_mul_of_nonneg_right eased (Int.le_of_lt (pooled_sq_pos taken positive))
      _ ≤ q.weight := within
      _ ≤ r.weight := grown

-- The hurdle at any price covers the cost of a unit less what the unit adds to what is held.
theorem cost_le_clampedHurdle (q : Quote) {price : Int} (least : 0 ≤ price) :
    24 * wad - q.cross ≤ q.clampedHurdle price := by
  apply Int.le_trans _ (hurdle_le_clampedHurdle q price)
  rw [hurdle, optionCount_cast, Int.max_eq_right least]
  omega

def bar (q : Quote) (rate : Int) : Int := optionCount * (rate + wad) - wad - q.cross

theorem bar_of_nonneg (q : Quote) {price : Int} (least : 0 ≤ price) : q.bar price = q.hurdle price := by
  rw [bar, hurdle, Int.max_eq_right least]

theorem weight_nonneg (taken : 0 ≤ q.taken) (prize : 0 ≤ q.prize) : 0 ≤ q.weight :=
  Int.mul_nonneg (Int.mul_nonneg taken prize) (Int.le_of_lt wad_pos)

theorem slope_eq (taken : 0 ≤ q.taken) (x : Int) :
    q.slope x = q.weight / ((q.taken + x) * (q.taken + x)) := by
  rcases Int.lt_or_eq_of_le taken with staked | nobody
  · rw [slope, if_pos staked, Int.fdiv_eq_ediv_of_nonneg _ (mul_self_nonneg _), weight]
  · simp [slope, weight, nobody.symm]

theorem slope_nonneg (taken : 0 ≤ q.taken) (prize : 0 ≤ q.prize) (x : Int) : 0 ≤ q.slope x := by
  rw [slope_eq taken]
  exact Int.ediv_nonneg (weight_nonneg taken prize) (mul_self_nonneg _)

theorem bar_le_slope_iff {rate x : Int} (least : 0 ≤ x) : q.bar rate ≤ q.slope x ↔ rate ≤ q.marginal x := by
  rw [bar, marginal, Int.max_eq_right least, optionCount_cast]
  omega

theorem le_marginal_iff (taken : 0 ≤ q.taken) {price x : Int} (free : 0 ≤ price) (positive : 1 ≤ x) :
    price ≤ q.marginal x ↔ q.hurdle price * ((q.taken + x) * (q.taken + x)) ≤ q.weight := by
  rw [← bar_le_slope_iff (Int.le_trans Int.one_nonneg positive), bar_of_nonneg q free, slope_eq taken,
    Int.le_ediv_iff_mul_le (pooled_sq_pos taken positive)]

theorem le_marginal_of_le_peak (taken : 0 ≤ q.taken) (prize : 0 ≤ q.prize) {price x : Int}
    (least : 0 ≤ price) (positive : 1 ≤ x) (below : x ≤ q.peak price) : price ≤ q.marginal x := by
  have pooled := pooled_sq_pos taken positive
  have clamped := (le_peak_iff taken prize positive).1 below
  rw [le_marginal_iff taken least positive]
  exact Int.le_trans (Int.mul_le_mul_of_nonneg_right (hurdle_le_clampedHurdle q price)
    (Int.le_of_lt pooled)) clamped

-- What all other options together can at most add to a unit, so that no hurdle is negative.
def maxCross : Int := 24 * wad

theorem hurdle_nonneg {price : Int} (cross : q.cross ≤ maxCross) : 0 ≤ q.hurdle price := by
  have unit := wad_pos
  rw [maxCross] at cross
  rw [hurdle, optionCount_cast]
  omega

-- A price higher by one has a hurdle that no clamp touches.
theorem marginal_le_of_peak_lt (taken : 0 ≤ q.taken) (prize : 0 ≤ q.prize)
    (cross : q.cross ≤ maxCross) {price x : Int} (least : 0 ≤ price) (above : q.peak price < x) :
    q.marginal x ≤ price := by
  have positive : 1 ≤ x := by
    have := peak_nonneg q price
    omega
  have pooled := pooled_sq_pos taken positive
  have beyond := (not_congr (le_peak_iff taken prize positive)).1 (Int.not_le.2 above)
  have raised : q.clampedHurdle price ≤ q.hurdle (price + 1) := by
    have lower : 0 ≤ q.hurdle price := hurdle_nonneg cross
    unfold clampedHurdle
    rw [hurdle, optionCount_cast, Int.max_eq_right least] at lower ⊢
    rw [hurdle, optionCount_cast, Int.max_eq_right (show 0 ≤ price + 1 by omega)]
    omega
  apply Int.not_lt.1
  intro worth
  have product := (le_marginal_iff taken (show 0 ≤ price + 1 by omega) positive).1 worth
  have := Int.mul_le_mul_of_nonneg_right raised (Int.le_of_lt pooled)
  omega

end Quote

namespace Model

theorem shareAt_le_wad {board : Board} (valid : board.Valid) (holdings : Holdings) (i : Int) :
    shareAt board holdings i ≤ wad := by
  have taken := takenAt_nonneg valid i
  have unit := wad_pos
  unfold shareAt
  split
  · rename_i held
    rw [Int.fdiv_eq_ediv_of_nonneg _ (by omega)]
    apply Int.ediv_le_of_le_mul (by omega)
    rw [Int.mul_comm]
    exact Int.mul_le_mul_of_nonneg_left (by omega) (Int.le_of_lt unit)
  · exact Int.le_of_lt unit

theorem card_rivals {i : Int} (member : i ∈ options) : (grid.erase i).card = 24 := by
  rw [Finset.card_erase_of_mem (mem_grid.2 member), grid, List.toFinset_card_of_nodup options_nodup]
  rfl

theorem shares_le {board : Board} (valid : board.Valid) (holdings : Holdings) {i : Int}
    (member : i ∈ options) : ∑ j ∈ grid.erase i, shareAt board holdings j ≤ Quote.maxCross := by
  have each := Finset.sum_le_card_nsmul (grid.erase i) (shareAt board holdings) wad
    fun j _ => shareAt_le_wad valid holdings j
  rw [card_rivals member, nsmul_eq_mul] at each
  exact each

theorem crossAt_le {board : Board} (valid : board.Valid) (holdings : Holdings) {i : Int}
    (member : i ∈ options) : crossAt board holdings i ≤ Quote.maxCross := by
  have shares := shares_le valid holdings member
  have keep : board.keep ≤ bpsScale := by
    have := valid.skim_nonneg
    unfold Board.keep
    omega
  have nonneg : 0 ≤ ∑ j ∈ grid.erase i, shareAt board holdings j :=
    Finset.sum_nonneg fun j _ => shareAt_nonneg valid holdings j
  rw [crossAt_eq_sum board holdings member]
  apply Int.ediv_le_of_le_mul (by decide)
  calc board.keep * ∑ j ∈ grid.erase i, shareAt board holdings j
      ≤ bpsScale * ∑ j ∈ grid.erase i, shareAt board holdings j :=
        Int.mul_le_mul_of_nonneg_right keep nonneg
    _ ≤ bpsScale * Quote.maxCross := Int.mul_le_mul_of_nonneg_left shares (by decide)
    _ = Quote.maxCross * bpsScale := Int.mul_comm _ _

theorem Sound.cross_le {m : Model} (sound : m.Sound) {i : Int} (member : i ∈ options) :
    (m.quoteAt i).cross ≤ Quote.maxCross := by
  have bound := crossAt_le sound.board m.holdings member
  exact bound

end Model
end Parimutuel
