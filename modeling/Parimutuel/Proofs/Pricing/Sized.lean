import Parimutuel.Proofs.Pricing.Joint
import Parimutuel.Proofs.Pricing.Peak

namespace Parimutuel

open Model (takenAt ownAt)

-- Own stakes that are flat ones held before, and others sized against these.
structure Sized (board : Board) (s : Strategy) (held own : Int → Int) : Prop where
  nonneg : ∀ i ∈ grid, 0 ≤ held i
  grown : ∀ i ∈ grid, held i ≤ own i
  kept : ∀ i ∈ grid, 0 < held i → own i = held i
  unstaked : ∀ i ∈ grid, 0 < held i → takenAt board i = 0
  flat : ∀ i ∈ grid, 0 < held i → 24 * (held i : ℚ) < pot board s (fun _ => 0) i
  sized : ∀ i ∈ grid, held i = 0 → 0 < own i →
    24 * (own i : ℚ) < portion board own i * pot board s held i + own i * boost board held i

section Sized

variable {board : Board} {s : Strategy} {held own : Int → Int} {i : Int}

theorem gainOn_scaled (board : Board) (s : Strategy) (own : Int → Int) (i : Int) :
    25 * gainOn board s own i = portion board own i * pot board s own i - 24 * own i := by
  have count : (optionCount : ℚ) = 25 := rfl
  rw [gainOn, count]
  ring

theorem pot_grown (board : Board) (s : Strategy) (held own : Int → Int) (i : Int) :
    pot board s own i = pot board s held i +
      board.keep / bpsScale * ∑ j ∈ grid.erase i, ((own j : ℚ) - held j) := by
  rw [pot, pot, Finset.sum_sub_distrib]
  push_cast
  ring

theorem keepRate_nonneg (valid : board.Valid) : (0 : ℚ) ≤ board.keep / bpsScale :=
  div_nonneg (Int.cast_nonneg (Model.keep_nonneg valid)) (Int.cast_nonneg (show 0 ≤ bpsScale by decide))

theorem portion_nonneg (valid : board.Valid) (least : 0 ≤ own i) : 0 ≤ portion board own i := by
  have taken := Model.takenAt_nonneg valid i
  apply div_nonneg (Int.cast_nonneg least)
  exact_mod_cast Int.add_nonneg taken least

theorem portion_of_unstaked (unstaked : takenAt board i = 0) (staked : 0 < own i) :
    portion board own i = 1 := by
  have whole : (own i : ℚ) ≠ 0 := Int.cast_ne_zero.2 (by omega)
  rw [portion, unstaked, Int.cast_zero, zero_add, div_self whole]

def lone (i x : Int) : Int → Int := fun j => if j = i then x else 0

theorem lone_self (i x : Int) : lone i x i = x := if_pos rfl

theorem lone_rival {x j : Int} (inside : j ∈ grid.erase i) : lone i x j = 0 :=
  if_neg (Finset.ne_of_mem_erase inside)

theorem contribution_lone {x : Int} (unstaked : takenAt board i = 0) (staked : 0 < x) :
    contribution board s (lone i x) i = (x + pot board s (fun _ => 0) i) / 25 - x := by
  have whole : portion board (lone i x) i = 1 :=
    portion_of_unstaked unstaked ((lone_self i x).symm ▸ staked)
  have others : pot board s (lone i x) i = pot board s (fun _ => 0) i := by
    rw [pot, pot, Finset.sum_congr rfl fun j inside => lone_rival inside]
  have nothing : boost board (lone i x) i = 0 := by
    rw [boost, Finset.sum_eq_zero fun j inside => portion_of_zero (lone_rival inside), mul_zero]
  have count : (optionCount : ℚ) = 25 := rfl
  rw [contribution, whole, others, nothing, lone_self, count, mul_zero, add_zero, one_mul]

-- What all sized stakes together add to the flat ones.
def Sized.gap (held own : Int → Int) : ℚ := ∑ j ∈ grid, ((own j : ℚ) - held j)

namespace Sized

theorem flat_gain (sized : Sized board s held own) (valid : board.Valid) (member : i ∈ grid)
    (staked : 0 < held i) :
    board.keep / bpsScale * gap held own < 25 * gainOn board s own i := by
  have same := sized.kept i member staked
  have whole : portion board own i = 1 :=
    portion_of_unstaked (sized.unstaked i member staked) (same ▸ staked)
  have above := sized.flat i member staked
  have rest : gap held own ≤ ∑ j ∈ grid.erase i, ((own j : ℚ) - (0 : Int)) := by
    rw [gap, ← Finset.add_sum_erase grid _ member, same, sub_self, zero_add]
    apply Finset.sum_le_sum
    intro j inside
    have least : (0 : ℚ) ≤ held j := Int.cast_nonneg (sized.nonneg j (Finset.mem_of_mem_erase inside))
    rw [Int.cast_zero]
    linarith
  have added := mul_le_mul_of_nonneg_left rest (keepRate_nonneg valid)
  rw [gainOn_scaled, whole, pot_grown board s (fun _ => 0) own i, same]
  linarith

theorem sized_gain (sized : Sized board s held own) (valid : board.Valid) (member : i ∈ grid)
    (fresh : held i = 0) (staked : 0 < own i) :
    -(own i * (board.keep / bpsScale * ∑ j ∈ grid, portion board held j)) <
      25 * gainOn board s own i := by
  have rate := keepRate_nonneg valid
  have stake : (0 : ℚ) ≤ own i := Int.cast_nonneg (Int.le_of_lt staked)
  have pays := sized.sized i member fresh staked
  have grown : pot board s held i ≤ pot board s own i := by
    rw [pot_grown board s held own i]
    apply le_add_of_nonneg_right
    apply mul_nonneg rate
    apply Finset.sum_nonneg
    intro j inside
    exact sub_nonneg.2 (Int.cast_le.2 (sized.grown j (Finset.mem_of_mem_erase inside)))
  have share := mul_le_mul_of_nonneg_left grown (portion_nonneg valid (Int.le_of_lt staked))
  have bounded : boost board held i ≤ board.keep / bpsScale * ∑ j ∈ grid, portion board held j := by
    apply mul_le_mul_of_nonneg_left _ rate
    rw [← Finset.add_sum_erase grid _ member]
    exact le_add_of_nonneg_left (portion_nonneg valid (sized.nonneg i member))
  have owed := mul_le_mul_of_nonneg_left bounded stake
  rw [gainOn_scaled]
  linarith

theorem balance_le (sized : Sized board s held own) (valid : board.Valid) (member : i ∈ grid) :
    portion board held i * (board.keep / bpsScale * gap held own) -
        (own i - held i) * (board.keep / bpsScale * ∑ j ∈ grid, portion board held j) ≤
      25 * gainOn board s own i ∧
    (0 < own i → portion board held i * (board.keep / bpsScale * gap held own) -
        (own i - held i) * (board.keep / bpsScale * ∑ j ∈ grid, portion board held j) <
      25 * gainOn board s own i) := by
  by_cases flat : 0 < held i
  · have gain := sized.flat_gain valid member flat
    rw [portion_of_unstaked (sized.unstaked i member flat) flat, sized.kept i member flat, sub_self,
      one_mul, zero_mul, sub_zero]
    exact ⟨le_of_lt gain, fun _ => gain⟩
  · have least := sized.nonneg i member
    have fresh : held i = 0 := by omega
    rw [portion_of_zero fresh, fresh, Int.cast_zero, zero_mul, zero_sub, sub_zero]
    by_cases staked : 0 < own i
    · have gain := sized.sized_gain valid member fresh staked
      exact ⟨le_of_lt gain, fun _ => gain⟩
    · have grown := sized.grown i member
      have nothing : own i = 0 := by omega
      rw [gainOn_of_zero nothing, nothing, Int.cast_zero, zero_mul, neg_zero, mul_zero]
      exact ⟨le_refl 0, fun some => absurd some (lt_irrefl 0)⟩

theorem jointGain_pos (sized : Sized board s held own) (valid : board.Valid) (member : i ∈ grid)
    (staked : 0 < own i) : 0 < jointGain board s own := by
  have total : (0 : ℚ) < ∑ j ∈ grid, 25 * gainOn board s own j := by
    calc (0 : ℚ)
        = ∑ j ∈ grid, (portion board held j * (board.keep / bpsScale * gap held own) -
            (own j - held j) * (board.keep / bpsScale * ∑ j ∈ grid, portion board held j)) := by
          rw [Finset.sum_sub_distrib, ← Finset.sum_mul, ← Finset.sum_mul, gap]
          ring
      _ < ∑ j ∈ grid, 25 * gainOn board s own j :=
          Finset.sum_lt_sum (fun j inside => (sized.balance_le valid inside).1)
            ⟨i, member, (sized.balance_le valid member).2 staked⟩
  rw [← Finset.mul_sum] at total
  rw [jointGain]
  linarith

end Sized
end Sized

namespace Model

variable {m : Model} {i : Int}

-- So the square at the peak is bounded by what is to be won.
theorem Sound.peak_sq_le (sound : m.Sound) (member : i ∈ options) {price x : Int} (least : 0 ≤ price)
    (positive : 1 ≤ x) (below : x ≤ (m.quoteAt i).peak price) :
    0 < (m.quoteAt i).weight ∧
      (24 * wad - (m.quoteAt i).cross) * ((takenAt m.board i + x) * (takenAt m.board i + x)) ≤
        (m.quoteAt i).weight := by
  obtain ⟨taken, prize, _⟩ := sound.quoteAt_nonneg member
  have pooled := Quote.pooled_sq_pos taken positive
  have clamped := (Quote.le_peak_iff taken prize positive).1 below
  have lower := Int.mul_pos (Quote.clampedHurdle_pos (m.quoteAt i) price) pooled
  have hurdle := Quote.cost_le_clampedHurdle (m.quoteAt i) least
  exact ⟨Int.lt_of_lt_of_le lower clamped,
    Int.le_trans (Int.mul_le_mul_of_nonneg_right hurdle (Int.le_of_lt pooled)) clamped⟩

theorem Sound.pot_pos (sound : m.Sound) (member : i ∈ options) (some : 0 < (m.quoteAt i).weight)
    {held : Int → Int} (same : ∀ j ∈ grid.erase i, held j = ownAt m.holdings j) :
    0 < pot m.board m.strategy held i := by
  apply lt_of_lt_of_le _ (sound.prize_le_pot member same)
  apply Int.cast_pos.2 (lt_of_le_of_ne (sound.quoteAt_nonneg member).2.1 _)
  intro none
  rw [Quote.weight, ← none, Int.mul_zero, Int.zero_mul] at some
  exact absurd some (lt_irrefl 0)

theorem Sound.pot_sq_le (sound : m.Sound) (member : i ∈ options) {x : Int}
    (square : (24 * wad - (m.quoteAt i).cross) * ((takenAt m.board i + x) * (takenAt m.board i + x)) ≤
      (m.quoteAt i).weight) {held : Int → Int}
    (same : ∀ j ∈ grid.erase i, held j = ownAt m.holdings j) :
    (24 - boost m.board held i) * ((takenAt m.board i + x) * (takenAt m.board i + x)) ≤
      takenAt m.board i * pot m.board m.strategy held i := by
  have unit : (0 : ℚ) < wad := Int.cast_pos.2 (by decide)
  have taken : (0 : ℚ) ≤ takenAt m.board i := Int.cast_nonneg (takenAt_nonneg sound.board i)
  have above := sound.prize_le_pot member same
  have cross := sound.cross_le_boost member same
  have area := mul_self_nonneg ((takenAt m.board i : ℚ) + x)
  have root : (((24 * wad - (m.quoteAt i).cross) *
      ((takenAt m.board i + x) * (takenAt m.board i + x)) : Int) : ℚ) ≤
        ((takenAt m.board i * (m.quoteAt i).prize * wad : Int) : ℚ) := Int.cast_le.2 square
  have lowered := mul_le_mul_of_nonneg_right (sub_le_sub_left cross (24 * (wad : ℚ))) area
  have raised := mul_le_mul_of_nonneg_right (mul_le_mul_of_nonneg_left above taken) (le_of_lt unit)
  apply le_of_mul_le_mul_right _ unit
  push_cast at root
  linarith

-- A stake up to its peak pays more on average than it costs, with what it adds to what is held.
theorem Sound.peak_pays (sound : m.Sound) (member : i ∈ options) {price : Int} {own held : Int → Int}
    (least : 0 ≤ price) (staked : 0 < own i) (below : own i ≤ (m.quoteAt i).peak price)
    (same : ∀ j ∈ grid.erase i, held j = ownAt m.holdings j) :
    24 * (own i : ℚ) < portion m.board own i * pot m.board m.strategy held i +
      own i * boost m.board held i := by
  obtain ⟨some, root⟩ := sound.peak_sq_le member least staked below
  have square := sound.pot_sq_le member root same
  have stake : (0 : ℚ) < own i := Int.cast_pos.2 staked
  have taken : (0 : ℚ) ≤ takenAt m.board i := Int.cast_nonneg (takenAt_nonneg sound.board i)
  have pooled : (0 : ℚ) < takenAt m.board i + own i := by linarith
  have share : (24 - boost m.board held i) * (takenAt m.board i + own i) <
      pot m.board m.strategy held i := by
    have more := mul_pos stake (sound.pot_pos member some same)
    apply lt_of_mul_lt_mul_right _ (le_of_lt pooled)
    linarith
  have weighed := mul_lt_mul_of_pos_left share (div_pos stake pooled)
  have whole : portion m.board own i * (takenAt m.board i + own i) = own i :=
    div_mul_cancel₀ _ (ne_of_gt pooled)
  calc 24 * (own i : ℚ)
      = portion m.board own i * ((24 - boost m.board held i) * (takenAt m.board i + own i)) +
          own i * boost m.board held i := by
        rw [mul_left_comm, whole]
        ring
    _ < portion m.board own i * pot m.board m.strategy held i + own i * boost m.board held i :=
        add_lt_add_left weighed _

end Model
end Parimutuel
