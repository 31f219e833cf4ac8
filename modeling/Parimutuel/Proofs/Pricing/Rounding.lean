import Parimutuel.Proofs.Acceptance
import Parimutuel.Proofs.Pricing.Growth
import Parimutuel.Proofs.Pricing.Joint
import Parimutuel.Proofs.Pricing.Peak

namespace Parimutuel

theorem lt_cast_ediv_add_one (a : Int) {b : Int} (positive : 0 < b) : (a : ℚ) / b < (a / b : Int) + 1 := by
  have divisor : (0 : ℚ) < b := Int.cast_pos.2 positive
  rw [div_lt_iff₀ divisor]
  exact_mod_cast Int.lt_ediv_add_one_mul_self a positive

theorem portion_le_one {board : Board} (valid : board.Valid) {own : Int → Int} {i : Int}
    (staked : 0 < own i) : portion board own i ≤ 1 := by
  have taken := Model.takenAt_nonneg valid i
  have pooled : 0 < Model.takenAt board i + own i := by omega
  rw [portion, div_le_one (by exact_mod_cast pooled)]
  exact_mod_cast Int.le_add_of_nonneg_left taken

namespace Model

variable {m n : Model} {own : Int → Int} {i : Int}

theorem Sound.pot_lt_prize (sound : m.Sound) (member : i ∈ options)
    (same : ∀ j ∈ grid.erase i, own j = ownAt m.holdings j) :
    pot m.board m.strategy own i < (m.quoteAt i).prize + 1 := by
  have skimmed := lt_cast_ediv_add_one (m.board.keep * (m.board.total - takenAt m.board i +
    ∑ j ∈ grid.erase i, own j)) (show 0 < bpsScale by decide)
  rw [sound.prize_eq member same, pot]
  push_cast at skimmed ⊢
  linarith

theorem portion_le_shareAt (valid : m.board.Valid) (same : own i = ownAt m.holdings i)
    (least : 0 ≤ own i) : wad * portion m.board own i ≤ shareAt m.board m.holdings i + 1 := by
  have taken := takenAt_nonneg valid i
  rw [shareAt, portion, ← same]
  by_cases held : own i > 0
  · have part := lt_cast_ediv_add_one (own i * wad) (show 0 < takenAt m.board i + own i by omega)
    rw [if_pos held, Int.fdiv_eq_ediv_of_nonneg _ (by omega)]
    calc (wad * (own i / (takenAt m.board i + own i)) : ℚ)
        = (own i * wad : Int) / (takenAt m.board i + own i : Int) := by push_cast; ring
      _ ≤ (own i * wad / (takenAt m.board i + own i) : Int) + 1 := le_of_lt part
  · have none : own i = 0 := by omega
    rw [if_neg held, none, Int.cast_zero, zero_div, mul_zero, zero_add]
    exact zero_le_one

-- The shares of 24 options are rounded, and then what they add.
theorem Sound.boost_lt_cross (sound : m.Sound) (member : i ∈ options)
    (same : ∀ j ∈ grid.erase i, own j = ownAt m.holdings j) :
    wad * boost m.board own i < (m.quoteAt i).cross + 25 := by
  have keep : (0 : ℚ) ≤ m.board.keep := Int.cast_nonneg (keep_nonneg sound.board)
  have whole : (m.board.keep : ℚ) ≤ bpsScale := by
    have := sound.board.skim_nonneg
    exact Int.cast_le.2 (by unfold Board.keep; omega)
  have scale : (0 : ℚ) < bpsScale := Int.cast_pos.2 (by decide)
  have skimmed := lt_cast_ediv_add_one
    (m.board.keep * ∑ j ∈ grid.erase i, shareAt m.board m.holdings j) (show 0 < bpsScale by decide)
  have shares : ∑ j ∈ grid.erase i, wad * portion m.board own j ≤
      (∑ j ∈ grid.erase i, (shareAt m.board m.holdings j : ℚ)) + 24 := by
    have each : ∑ j ∈ grid.erase i, wad * portion m.board own j ≤
        ∑ j ∈ grid.erase i, ((shareAt m.board m.holdings j : ℚ) + 1) := by
      apply Finset.sum_le_sum
      intro j inside
      have least := ownAt_nonneg sound.held j
      exact portion_le_shareAt sound.board (same j inside) (same j inside ▸ least)
    rw [Finset.sum_add_distrib, Finset.sum_const, card_rivals member, nsmul_one] at each
    exact_mod_cast each
  have rate : (m.board.keep : ℚ) / bpsScale ≤ 1 := (div_le_one scale).2 whole
  have scaled := mul_le_mul_of_nonneg_left shares (div_nonneg keep (le_of_lt scale))
  have cross : (m.quoteAt i).cross = _ := crossAt_eq_sum m.board m.holdings member
  rw [cross]
  push_cast at skimmed
  calc (wad * boost m.board own i : ℚ)
      = m.board.keep / bpsScale * ∑ j ∈ grid.erase i, wad * portion m.board own j := by
        rw [boost, ← Finset.mul_sum]
        ring
    _ ≤ m.board.keep / bpsScale *
          ((∑ j ∈ grid.erase i, (shareAt m.board m.holdings j : ℚ)) + 24) := scaled
    _ ≤ m.board.keep * (∑ j ∈ grid.erase i, (shareAt m.board m.holdings j : ℚ)) / bpsScale + 24 := by
        rw [mul_add, div_mul_eq_mul_div]
        linarith
    _ < ((m.board.keep * ∑ j ∈ grid.erase i, shareAt m.board m.holdings j) / bpsScale : Int) + 25 := by
        linarith

theorem Sound.lt_payout (sound : m.Sound) (member : i ∈ options)
    (same : ∀ j ∈ grid.erase i, own j = ownAt m.holdings j) (staked : 0 < own i) :
    wad * (own i + portion m.board own i * pot m.board m.strategy own i + own i * boost m.board own i) <
      (m.quoteAt i).payout (own i) + wad + 1 + 25 * own i := by
  have taken : (m.quoteAt i).taken = takenAt m.board i := rfl
  have pooled : 0 < takenAt m.board i + own i := by
    have := takenAt_nonneg sound.board i
    omega
  have unit : (0 : ℚ) ≤ wad := Int.cast_nonneg (by decide)
  have stake : (0 : ℚ) < own i := Int.cast_pos.2 staked
  have part : 0 ≤ portion m.board own i :=
    div_nonneg (le_of_lt stake) (by exact_mod_cast Int.le_of_lt pooled)
  have prize := mul_le_mul_of_nonneg_left (le_of_lt (sound.pot_lt_prize member same))
    (mul_nonneg unit part)
  have most := mul_le_mul_of_nonneg_left (portion_le_one sound.board staked) unit
  have cross := mul_lt_mul_of_pos_left (sound.boost_lt_cross member same) stake
  have share := lt_cast_ediv_add_one (own i * (m.quoteAt i).prize * wad) pooled
  have exact : ((own i * (m.quoteAt i).prize * wad : Int) : ℚ) / (takenAt m.board i + own i : Int) =
      wad * portion m.board own i * (m.quoteAt i).prize := by
    rw [portion]
    push_cast
    ring
  rw [Quote.payout, taken, Int.fdiv_eq_ediv_of_nonneg _ (Int.le_of_lt pooled)]
  rw [exact] at share
  push_cast at share ⊢
  linarith

theorem Sound.contribution_lt_value (sound : m.Sound) (member : i ∈ options)
    (same : ∀ j ∈ grid.erase i, own j = ownAt m.holdings j) (least : 0 ≤ own i) :
    contribution m.board m.strategy own i < (m.quoteAt i).value (own i) + 2 + (own i : ℚ) / wad := by
  by_cases nothing : own i ≤ 0
  · have none : own i = 0 := by omega
    rw [Quote.value, if_pos nothing, contribution, portion_of_zero none, none]
    norm_num
  · have payout := sound.lt_payout member same (Int.not_le.1 nothing)
    have mean := lt_cast_ediv_add_one ((m.quoteAt i).payout (own i))
      (show (0 : Int) < optionCount * wad by decide)
    have unit : (wad : ℚ) = 1000000000000000000 := rfl
    have count : (optionCount : ℚ) = 25 := rfl
    rw [Quote.value, if_neg nothing, Quote.gain, contribution, Int.cast_sub]
    push_cast at mean ⊢
    rw [unit] at payout
    rw [unit, count] at mean ⊢
    linarith

-- Nor does what is held on the option itself play a part in its quote.
theorem Sound.quoteAt_congr (left : m.Sound) (right : n.Sound) (board : m.board = n.board)
    (strategy : m.strategy = n.strategy) (member : i ∈ options)
    (same : ∀ j ∈ grid.erase i, ownAt m.holdings j = ownAt n.holdings j) :
    m.quoteAt i = n.quoteAt i := by
  have below := quoteAt_below left right board strategy member fun j inside =>
    Int.le_of_eq (same j inside)
  have above := quoteAt_below right left board.symm strategy.symm member fun j inside =>
    Int.le_of_eq (same j inside).symm
  exact below.antisymm above

theorem value?_contribution {board : Board} {strategy : Strategy} {holdings : Holdings} {x : Int}
    (valid : board.Valid) (unitValue : 0 ≤ strategy.unitValue)
    (width : holdings.length = optionCount) (held : ∀ y ∈ holdings, 0 ≤ y)
    (member : i ∈ options) (least : 0 ≤ x) :
    ∃ m v, price? board strategy holdings = .ok m ∧ m.value? i x = .ok v ∧
      (v : ℚ) ≤ jointGain board strategy (Function.update (ownAt holdings) i x) -
        jointGain board strategy (Function.update (ownAt holdings) i 0) ∧
      jointGain board strategy (Function.update (ownAt holdings) i x) -
        jointGain board strategy (Function.update (ownAt holdings) i 0) < v + 2 + (x : ℚ) / wad ∧
      ∀ other : Holdings, other.length = optionCount → (∀ y ∈ other, 0 ≤ y) →
        (∀ j ∈ options, j ≠ i → ownAt other j = ownAt holdings j) →
        ∃ n, price? board strategy other = .ok n ∧ n.value? i x = .ok v := by
  have sound := priced_sound valid unitValue width held
  have moved : ∀ j ∈ grid.erase i, Function.update (ownAt holdings) i x j = ownAt holdings j :=
    fun j inside => Function.update_of_ne (Finset.ne_of_mem_erase inside) x (ownAt holdings)
  have self : Function.update (ownAt holdings) i x i = x := Function.update_self i x (ownAt holdings)
  have gain := jointGain_update board strategy (Function.update (ownAt holdings) i x)
    (mem_grid.2 member)
  have lower := sound.value_le_contribution member moved (self.symm ▸ least)
  have upper := sound.contribution_lt_value member moved (self.symm ▸ least)
  rw [Function.update_idem] at gain
  rw [self] at lower upper
  refine ⟨_, _, price?_ok strategy valid width, sound.value? member x, ?_, ?_, ?_⟩
  · rw [gain]
    exact lower
  · rw [gain]
    exact upper
  · intro other wide nonneg rest
    have repriced : (priced board strategy other).Sound := priced_sound valid unitValue wide nonneg
    have quote := repriced.quoteAt_congr sound rfl rfl member fun j inside =>
      rest j (mem_grid.1 (Finset.mem_of_mem_erase inside)) (Finset.ne_of_mem_erase inside)
    exact ⟨_, price?_ok strategy valid wide, quote ▸ repriced.value? member x⟩

-- Each option staked more than the one before it, by others and by oneself.
def risingBoard : Board := ⟨options.map (100 * ·), List.replicate 25 0, 1090, 1, true, 7⟩

def risingHoldings : Holdings := options.map (3 * ·)

theorem value?_contribution_rising :
    ∃ m v, price? risingBoard ⟨0, 1, 1, 1, 800000000, 2, 60, 2⟩ risingHoldings = .ok m ∧
      m.value? 4 90 = .ok v ∧
      (v : ℚ) ≤
        jointGain risingBoard ⟨0, 1, 1, 1, 800000000, 2, 60, 2⟩
            (Function.update (ownAt risingHoldings) 4 90) -
          jointGain risingBoard ⟨0, 1, 1, 1, 800000000, 2, 60, 2⟩
            (Function.update (ownAt risingHoldings) 4 0) ∧
      ∃ n, price? risingBoard ⟨0, 1, 1, 1, 800000000, 2, 60, 2⟩ (risingHoldings.set 4 90) = .ok n ∧
        n.value? 4 90 = .ok v := by
  obtain ⟨m, v, pricing, valued, lower, _, same⟩ := @value?_contribution 4 risingBoard
    ⟨0, 1, 1, 1, 800000000, 2, 60, 2⟩ risingHoldings 90
    (by decide) (by decide) (by decide) (by decide) (by decide) (by decide)
  exact ⟨m, v, pricing, valued, lower, same _ (by decide) (by decide) (by decide)⟩

end Model
end Parimutuel
