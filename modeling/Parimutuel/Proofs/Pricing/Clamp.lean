import Parimutuel.Proofs.Acceptance
import Parimutuel.Proofs.Pricing.Summit

namespace Parimutuel

namespace Quote

variable {q : Quote} {price : Int}

-- What the price asks for, and what the other options do not add.
theorem hurdle_eq (q : Quote) (price : Int) :
    q.hurdle price = 25 * max 0 price + (maxCross - q.cross) := by
  rw [hurdle, optionCount_cast, maxCross]
  omega

theorem hurdle_lt_one_iff (cross : q.cross ≤ maxCross) :
    q.hurdle price < 1 ↔ price ≤ 0 ∧ q.cross = maxCross := by
  rw [hurdle_eq]
  omega

theorem clampedHurdle_eq_iff : q.clampedHurdle price = q.hurdle price ↔ ¬ q.hurdle price < 1 := by
  rw [clampedHurdle]
  omega

end Quote

namespace Model

variable {board : Board} {holdings : Holdings} {i : Int}

theorem shareAt_of_owned (owned : Owned board holdings i) : shareAt board holdings i = wad := by
  obtain ⟨nobody, held⟩ := owned
  rw [shareAt, if_pos held, nobody, Int.zero_add, Int.fdiv_eq_ediv_of_nonneg _ (Int.le_of_lt held)]
  exact Int.mul_ediv_cancel_left wad (Int.ne_of_gt held)

theorem shareAt_eq_wad_iff (valid : board.Valid) :
    shareAt board holdings i = wad ↔ Owned board holdings i := by
  constructor
  · intro whole
    by_contra shared
    exact Int.ne_of_lt (shareAt_lt_wad valid shared) whole
  · exact shareAt_of_owned

-- Rounding the skim down leaves no more than the skim does.
theorem crossAt_mul_le (valid : board.Valid) (holdings : Holdings) (member : i ∈ options) :
    crossAt board holdings i * bpsScale ≤ Quote.maxCross * board.keep := by
  rw [crossAt_eq_sum board holdings member]
  calc board.keep * (∑ j ∈ grid.erase i, shareAt board holdings j) / bpsScale * bpsScale
      ≤ board.keep * ∑ j ∈ grid.erase i, shareAt board holdings j := Int.ediv_mul_le _ (by decide)
    _ ≤ board.keep * Quote.maxCross :=
        Int.mul_le_mul_of_nonneg_left (shares_le valid holdings member) (keep_nonneg valid)
    _ = Quote.maxCross * board.keep := Int.mul_comm _ _

theorem crossAt_of_surrounded (member : i ∈ options) (surrounded : Surrounded board holdings i) :
    crossAt board holdings i = Quote.maxCross := by
  obtain ⟨unskimmed, owned⟩ := surrounded
  have whole : ∀ j ∈ grid.erase i, shareAt board holdings j = wad := by
    intro j inside
    obtain ⟨other, known⟩ := Finset.mem_erase.1 inside
    exact shareAt_of_owned (owned j (mem_grid.1 known) other)
  have shares : ∑ j ∈ grid.erase i, shareAt board holdings j = Quote.maxCross := by
    rw [Finset.sum_congr rfl whole, Finset.sum_const, card_rivals member, nsmul_eq_mul]
    rfl
  rw [crossAt_eq_sum board holdings member, shares, Board.keep, unskimmed, Int.sub_zero]
  exact Int.mul_ediv_cancel_left _ (by decide)

theorem crossAt_eq_maxCross_iff (valid : board.Valid) (member : i ∈ options) :
    crossAt board holdings i = Quote.maxCross ↔ Surrounded board holdings i := by
  constructor
  · intro full
    by_contra apart
    exact Int.ne_of_lt (crossAt_lt valid member apart) full
  · exact crossAt_of_surrounded member

theorem price?_hurdle {board : Board} {strategy : Strategy} {holdings : Holdings}
    (valid : board.Valid) (width : holdings.length = optionCount) :
    ∃ m, price? board strategy holdings = .ok m ∧ ∀ i ∈ options, ∃ share q,
      share? board holdings i = .ok share ∧ share ≤ wad ∧
      (share = wad ↔ takenAt board i = 0 ∧ 0 < ownAt holdings i) ∧
      m.quote? i = .ok q ∧ 0 ≤ q.cross ∧ q.cross * 10000 ≤ 24 * wad * (10000 - board.skim) ∧
      ∀ price,
        25 * max 0 price * 10000 + 24 * wad * board.skim ≤ q.hurdle price * 10000 ∧
        (q.hurdle price < 1 ↔ price ≤ 0 ∧ board.skim = 0 ∧
          ∀ j ∈ options, j ≠ i → takenAt board j = 0 ∧ 0 < ownAt holdings j) ∧
        (q.clampedHurdle price = q.hurdle price ↔ ¬ (price ≤ 0 ∧ Surrounded board holdings i)) := by
  refine ⟨_, price?_ok strategy valid width, ?_⟩
  intro i member
  have least := crossAt_nonneg valid holdings member
  have most := crossAt_le valid holdings member
  have skimmed : crossAt board holdings i * 10000 ≤ 24 * wad * (10000 - board.skim) :=
    crossAt_mul_le valid holdings member
  refine ⟨_, _, share?_ok valid width member, shareAt_le_wad valid holdings i,
    shareAt_eq_wad_iff valid, quote?_priced strategy holdings valid member, least, skimmed, ?_⟩
  intro price
  have corner : ((priced board strategy holdings).quoteAt i).hurdle price < 1 ↔
      price ≤ 0 ∧ Surrounded board holdings i := by
    rw [Quote.hurdle_lt_one_iff most, ← crossAt_eq_maxCross_iff valid member]
    rfl
  refine ⟨?_, corner, Quote.clampedHurdle_eq_iff.trans (not_congr corner)⟩
  have missing : ((priced board strategy holdings).quoteAt i).hurdle price =
      25 * max 0 price + (24 * wad - crossAt board holdings i) := Quote.hurdle_eq _ price
  rw [missing]
  rw [Int.mul_sub] at skimmed
  omega

-- Six units from others on option 0, all of the others one's own, and no skim.
def walled : Board := ⟨6 :: List.replicate 24 0, List.replicate 25 0, 0, 1, true, 0⟩

def walls : Holdings := 0 :: List.replicate 24 10

-- The hurdle of option 0 is clamped at no price and open at the least one, and the stake of the others
-- keeps option 1 away from the corner.
theorem price?_hurdle_walled :
    ∃ m enclosed beside, price? walled ⟨0, 1, 1, 1, 0, 2, 60, 2⟩ walls = .ok m ∧
      share? walled walls 1 = .ok wad ∧ m.quote? 0 = .ok enclosed ∧ m.quote? 1 = .ok beside ∧
      enclosed.hurdle 0 < 1 ∧ enclosed.clampedHurdle 0 ≠ enclosed.hurdle 0 ∧
      enclosed.clampedHurdle 1 = enclosed.hurdle 1 ∧ beside.clampedHurdle 0 = beside.hurdle 0 := by
  obtain ⟨m, pricing, each⟩ := @price?_hurdle walled ⟨0, 1, 1, 1, 0, 2, 60, 2⟩ walls (by decide)
    (by decide)
  obtain ⟨_, enclosed, _, _, _, quoted, _, _, inner⟩ := each 0 (by decide)
  obtain ⟨share, beside, held, _, whole, other, _, _, outer⟩ := each 1 (by decide)
  cases whole.2 (by decide)
  have surrounded : Surrounded walled walls 0 := ⟨by decide, by unfold Owned; decide⟩
  have free : ¬ Surrounded walled walls 1 := by
    rintro ⟨_, owned⟩
    have taken : takenAt walled 0 = 0 := (owned 0 (by decide) (by decide)).1
    cases taken
  refine ⟨m, enclosed, beside, pricing, held, quoted, other, (inner 0).2.1.2 ⟨by decide, surrounded⟩,
    ?_, (inner 1).2.2.2 fun corner => absurd corner.1 (by decide),
    (outer 0).2.2.2 fun corner => free corner.2⟩
  intro same
  exact (inner 0).2.2.1 same ⟨by decide, surrounded⟩

end Model
end Parimutuel
