import Mathlib.Algebra.Order.BigOperators.Group.Finset
import Mathlib.Algebra.Order.Ring.Int
import Parimutuel.Proofs.Pricing.Sound

namespace Parimutuel

structure Quote.Below (q r : Quote) : Prop where
  taken : q.taken = r.taken
  prize : q.prize ≤ r.prize
  cross : q.cross ≤ r.cross

theorem Quote.Below.antisymm {q r : Quote} (below : q.Below r) (above : r.Below q) : q = r := by
  cases q
  cases r
  rw [Quote.mk.injEq]
  exact ⟨below.taken, Int.le_antisymm below.prize above.prize, Int.le_antisymm below.cross above.cross⟩

theorem ediv_le_ediv_of_cross {a b c d : Int} (left : 0 < b) (right : 0 < d)
    (cross : a * d ≤ c * b) (least : 0 ≤ d) : a / b ≤ c / d := by
  apply (Int.le_ediv_iff_mul_le right).2
  apply Int.le_of_mul_le_mul_right _ left
  calc a / b * d * b = a / b * b * d := Int.mul_right_comm _ _ _
    _ ≤ a * d := Int.mul_le_mul_of_nonneg_right (Int.ediv_mul_le a (Int.ne_of_gt left)) least
    _ ≤ c * b := cross

theorem Quote.Below.value {q r : Quote} (below : q.Below r) (taken : 0 ≤ q.taken) (stake : Int) :
    q.value stake ≤ r.value stake := by
  unfold Quote.value
  by_cases nothing : stake ≤ 0
  · rw [if_pos nothing, if_pos nothing]
  · rw [if_neg nothing, if_neg nothing]
    have positive : 0 ≤ stake := by omega
    have pooled : 0 < q.taken + stake := by omega
    have prize : stake * q.prize * wad ≤ stake * r.prize * wad :=
      Int.mul_le_mul_of_nonneg_right (Int.mul_le_mul_of_nonneg_left below.prize positive) (by decide)
    have part := Int.ediv_le_ediv pooled prize
    have cross := Int.mul_le_mul_of_nonneg_left below.cross positive
    have payout : q.payout stake ≤ r.payout stake := by
      unfold payout
      rw [← below.taken, Int.fdiv_eq_ediv_of_nonneg _ (Int.le_of_lt pooled),
        Int.fdiv_eq_ediv_of_nonneg _ (Int.le_of_lt pooled)]
      omega
    have gained := Int.ediv_le_ediv (show (0 : Int) < optionCount * wad by decide) payout
    unfold gain
    omega

theorem Quote.Below.marginal {q r : Quote} (below : q.Below r) (taken : 0 ≤ q.taken) (stake : Int) :
    q.marginal stake ≤ r.marginal stake := by
  have cross := below.cross
  have slope : q.slope (max 0 stake) ≤ r.slope (max 0 stake) := by
    unfold slope
    rw [← below.taken]
    by_cases staked : 0 < q.taken
    · have pooled : 0 < (q.taken + max 0 stake) * (q.taken + max 0 stake) :=
        Int.mul_pos (by omega) (by omega)
      have prize : q.taken * q.prize * wad ≤ q.taken * r.prize * wad :=
        Int.mul_le_mul_of_nonneg_right (Int.mul_le_mul_of_nonneg_left below.prize taken) (by decide)
      rw [if_pos staked, if_pos staked, Int.fdiv_eq_ediv_of_nonneg _ (Int.le_of_lt pooled),
        Int.fdiv_eq_ediv_of_nonneg _ (Int.le_of_lt pooled)]
      exact Int.ediv_le_ediv pooled prize
    · rw [if_neg staked, if_neg staked]
  have mean := Int.ediv_le_ediv (show (0 : Int) < optionCount by decide)
    (show wad + q.slope (max 0 stake) + q.cross ≤ wad + r.slope (max 0 stake) + r.cross by omega)
  unfold Quote.marginal
  omega

namespace Model

theorem shareAt_mono {board : Board} (valid : board.Valid) {less more : Holdings} {i : Int}
    (order : ownAt less i ≤ ownAt more i) : shareAt board less i ≤ shareAt board more i := by
  have taken := takenAt_nonneg valid i
  by_cases held : ownAt less i > 0
  · have later : ownAt more i > 0 := by omega
    rw [shareAt, shareAt, if_pos held, if_pos later, Int.fdiv_eq_ediv_of_nonneg _ (by omega),
      Int.fdiv_eq_ediv_of_nonneg _ (by omega)]
    apply ediv_le_ediv_of_cross (by omega) (by omega) _ (by omega)
    have gap : 0 ≤ (ownAt more i - ownAt less i) * wad * takenAt board i :=
      Int.mul_nonneg (Int.mul_nonneg (by omega) (by decide)) taken
    have expand : ownAt more i * wad * (takenAt board i + ownAt less i) -
        ownAt less i * wad * (takenAt board i + ownAt more i) =
          (ownAt more i - ownAt less i) * wad * takenAt board i := by grind
    omega
  · have least := shareAt_nonneg valid more i
    rw [shareAt, if_neg held]
    exact least

-- The same stakes of others, no more skimmed and a reward that is worth no less.
structure Eased (board other : Board) (s t : Strategy) : Prop where
  stakes : board.stakes = other.stakes
  skim : other.skim ≤ board.skim
  reward : rewardValue board.reward s.unitValue ≤ rewardValue other.reward t.unitValue

theorem Eased.skimmed_le {board other : Board} {s t : Strategy} (eased : Eased board other s t)
    (valid : other.Valid) {pool larger : Int} (least : 0 ≤ pool) (order : pool ≤ larger) :
    board.keep * pool / bpsScale ≤ other.keep * larger / bpsScale := by
  have keep : board.keep ≤ other.keep := Int.sub_le_sub_left eased.skim bpsScale
  exact Int.ediv_le_ediv (by decide) (Int.mul_le_mul keep order least (keep_nonneg valid))

theorem Sound.quoteAt_eased {m n : Model} (left : m.Sound) (right : n.Sound)
    (eased : Eased m.board n.board m.strategy n.strategy) {i : Int} (member : i ∈ options)
    (order : ∀ j ∈ grid.erase i, ownAt m.holdings j ≤ ownAt n.holdings j) :
    (m.quoteAt i).Below (n.quoteAt i) := by
  have taken : ∀ j, takenAt m.board j = takenAt n.board j := fun j => by
    rw [takenAt, takenAt, eased.stakes]
  have share : ∀ j, shareAt m.board n.holdings j = shareAt n.board n.holdings j := fun j => by
    rw [shareAt, shareAt, taken]
  refine ⟨taken i, ?_, ?_⟩
  · have pool : ∑ j ∈ grid.erase i, (takenAt m.board j + ownAt m.holdings j) ≤
        ∑ j ∈ grid.erase i, (takenAt n.board j + ownAt n.holdings j) := by
      apply Finset.sum_le_sum
      intro j inside
      rw [taken j]
      exact Int.add_le_add_left (order j inside) _
    have least : 0 ≤ ∑ j ∈ grid.erase i, (takenAt m.board j + ownAt m.holdings j) :=
      Finset.sum_nonneg fun j _ => Int.add_nonneg (takenAt_nonneg left.board j)
        (ownAt_nonneg left.held j)
    rw [Model.quoteAt, Model.quoteAt, prizeAt_eq_sum _ left.board left.width member,
      prizeAt_eq_sum _ right.board right.width member]
    exact Int.add_le_add (eased.skimmed_le right.board least pool) eased.reward
  · have shares : ∑ j ∈ grid.erase i, shareAt m.board m.holdings j ≤
        ∑ j ∈ grid.erase i, shareAt n.board n.holdings j := by
      apply Finset.sum_le_sum
      intro j inside
      rw [← share j]
      exact shareAt_mono left.board (order j inside)
    have least : 0 ≤ ∑ j ∈ grid.erase i, shareAt m.board m.holdings j :=
      Finset.sum_nonneg fun j _ => shareAt_nonneg left.board m.holdings j
    rw [Model.quoteAt, Model.quoteAt, crossAt_eq_sum _ _ member, crossAt_eq_sum _ _ member]
    exact eased.skimmed_le right.board least shares

theorem quoteAt_below {m n : Model} (left : m.Sound) (right : n.Sound) (board : m.board = n.board)
    (strategy : m.strategy = n.strategy) {i : Int} (member : i ∈ options)
    (order : ∀ j ∈ grid.erase i, ownAt m.holdings j ≤ ownAt n.holdings j) :
    (m.quoteAt i).Below (n.quoteAt i) := by
  have same : Eased m.board n.board m.strategy n.strategy := by
    rw [board, strategy]
    exact ⟨rfl, Int.le_refl _, Int.le_refl _⟩
  exact left.quoteAt_eased right same member order

theorem against_below {m : Model} (sound : m.Sound) {s t : Stakes} (distinct : t.numbers.Nodup)
    (part : s ⊆ t) {i : Int} (member : i ∈ options) :
    ((m.against s).quoteAt i).Below ((m.against t).quoteAt i) := by
  apply quoteAt_below (sound.against s) (sound.against t) rfl rfl member
  intro j inside
  have known := mem_grid.1 (Finset.mem_of_mem_erase inside)
  have own : ∀ u : Stakes, ownAt (m.against u).holdings j = max 0 (u.amount j) := fun u =>
    u.ownAt_holdings known
  rw [own s, own t]
  by_cases staked : s.amount j = 0
  · omega
  · have same : t.amount j = s.amount j :=
      Stakes.amount_of_mem distinct (part (Stakes.mem_of_amount staked))
    omega

end Model
end Parimutuel
