import Parimutuel.Proofs.Acceptance
import Parimutuel.Proofs.Planning.Stages
import Parimutuel.Proofs.Pricing.Ascent

namespace Parimutuel

namespace Model

structure Priceable (board : Board) (s : Strategy) : Prop where
  width : board.stakes.length = optionCount
  taken : ∀ x ∈ board.stakes, 0 ≤ x
  skim_nonneg : 0 ≤ board.skim
  skim_le : board.skim ≤ bpsScale
  reward : 0 ≤ rewardValue board.reward s.unitValue

end Model

-- The same stakes, skim and reward on a board that is valid, for a strategy to whom a reward token is
-- worth one unit.
def Board.core (board : Board) (s : Strategy) : Board where
  stakes := board.stakes
  bettors := List.replicate optionCount 0
  skim := board.skim
  remaining := 0
  isOpen := true
  reward := rewardValue board.reward s.unitValue * rewardScale

def Strategy.core (s : Strategy) : Strategy := { s with unitValue := 1 }

theorem rewardValue_core (board : Board) (s : Strategy) :
    rewardValue (board.core s).reward s.core.unitValue = rewardValue board.reward s.unitValue := by
  have unit : (board.core s).reward * s.core.unitValue =
      rewardValue board.reward s.unitValue * rewardScale := Int.mul_one _
  rw [rewardValue, unit]
  exact Int.mul_ediv_cancel _ (by decide)

namespace Model

variable {board other : Board} {s t : Strategy}

theorem Priceable.valid (priceable : Priceable board s) : (board.core s).Valid where
  stakes_length := priceable.width
  bettors_length := List.length_replicate
  stakes_nonneg := priceable.taken
  bettors_nonneg n member := Int.le_of_eq (List.eq_of_mem_replicate member).symm
  skim_nonneg := priceable.skim_nonneg
  skim_le := priceable.skim_le
  remaining_nonneg := Int.le_refl 0
  reward_nonneg := Int.mul_nonneg priceable.reward (by decide)

def core (board : Board) (s : Strategy) (holdings : Holdings) : Model :=
  priced (board.core s) s.core holdings

def restated (m : Model) (board : Board) (s : Strategy) : Model :=
  { m with board := board, strategy := s }

theorem price?_core (board : Board) (s : Strategy) (holdings : Holdings) :
    price? board s holdings =
      (price? (board.core s) s.core holdings).map fun m => m.restated board s := by
  have shares : share? board holdings = share? (board.core s) holdings := rfl
  have keep : board.keep = (board.core s).keep := rfl
  have prizes : prize? board s holdings = prize? (board.core s) s.core holdings := by
    funext i
    rw [prize?, prize?, rewardValue_core]
    rfl
  rw [price?, price?, shares, prizes, keep]
  cases options.mapM (share? (board.core s) holdings) with
  | error fault => rfl
  | ok row => cases options.mapM (prize? (board.core s) s.core holdings) <;> rfl

theorem Priceable.price? (priceable : Priceable board s) {holdings : Holdings}
    (width : holdings.length = optionCount) :
    price? board s holdings = .ok ((core board s holdings).restated board s) := by
  rw [price?_core, price?_ok s.core priceable.valid width]
  rfl

theorem Priceable.sound (priceable : Priceable board s) {holdings : Holdings}
    (width : holdings.length = optionCount) (held : ∀ x ∈ holdings, 0 ≤ x) :
    (core board s holdings).Sound :=
  priced_sound priceable.valid (Int.le_of_lt Int.one_pos) width held

theorem taken?_restated (board : Board) (s : Strategy) (holdings : Holdings) (i : Int) :
    ((core board s holdings).restated board s).taken? i = (core board s holdings).taken? i := rfl

theorem quote?_restated (board : Board) (s : Strategy) (holdings : Holdings) (i : Int) :
    ((core board s holdings).restated board s).quote? i = (core board s holdings).quote? i := rfl

theorem Eased.core (eased : Eased board other s t) :
    Eased (board.core s) (other.core t) s.core t.core where
  stakes := eased.stakes
  skim := eased.skim
  reward := by
    rw [rewardValue_core, rewardValue_core]
    exact eased.reward

end Model

def Rises (first second : Except Fault Int) : Prop :=
  ∃ a b, first = .ok a ∧ second = .ok b ∧ a ≤ b

theorem Model.Sound.rises {m n : Model} (left : m.Sound) (right : n.Sound) {i : Int}
    (member : i ∈ options) (below : (m.quoteAt i).Below (n.quoteAt i)) (stake price : Int) :
    Rises (m.value? i stake) (n.value? i stake) ∧ Rises (m.marginal? i stake) (n.marginal? i stake) ∧
      Rises (m.optimum? i price) (n.optimum? i price) := by
  obtain ⟨taken, prize, _⟩ := left.quoteAt_nonneg member
  exact ⟨⟨_, _, left.value? member stake, right.value? member stake, below.value taken stake⟩,
    ⟨_, _, left.marginal? member stake, right.marginal? member stake, below.marginal taken stake⟩,
    ⟨_, _, left.optimum? member price, right.optimum? member price, below.peak taken prize price⟩⟩

namespace Screen

variable {board : Board} {s : Strategy}

theorem promising?_restated (board : Board) (s : Strategy) (holdings : Holdings) (minBet i : Int) :
    promising? ((Model.core board s holdings).restated board s) minBet i =
      promising? (Model.core board s holdings) minBet i := by
  simp only [promising?, Model.flat?, Model.value?, Model.marginal?, Model.quote?_restated,
    Model.taken?_restated]

theorem kept?_core (priceable : Model.Priceable board s) :
    kept? board s = .ok (screened (board.core s) s.core) := by
  have sound := priceable.sound Holdings.none_length (by decide)
  rw [kept?, Model.bare?, priceable.price? Holdings.none_length]
  apply keepWhere?_ok
  intro i member
  rw [promising?_restated]
  exact promising?_ok sound s.minBet member

theorem promising_rises {m n : Model} {minBet i : Int} (below : (m.quoteAt i).Below (n.quoteAt i))
    (taken : 0 ≤ (m.quoteAt i).taken) (passes : promising m minBet i = true) :
    promising n minBet i = true := by
  have value := below.value taken minBet
  have marginal := below.marginal taken 0
  unfold promising at passes ⊢
  rw [← below.taken]
  by_cases nobody : (m.quoteAt i).taken = 0
  · rw [if_pos nobody, decide_eq_true_iff] at passes ⊢
    exact Int.lt_of_lt_of_le passes value
  · rw [if_neg nobody, decide_eq_true_iff] at passes ⊢
    exact Int.lt_of_lt_of_le passes marginal

theorem screened_rises {other : Board} {t : Strategy} (left : Model.Priceable board s)
    (right : Model.Priceable other t) (eased : Model.Eased board other s t)
    (same : s.minBet = t.minBet) :
    screened (board.core s) s.core ⊆ screened (other.core t) t.core := by
  intro i kept
  obtain ⟨member, passes⟩ := List.mem_filter.1 kept
  have first := left.sound Holdings.none_length (by decide)
  have second := right.sound Holdings.none_length (by decide)
  have below := first.quoteAt_eased second eased.core member fun j _ => Int.le_refl _
  have minBet : s.core.minBet = t.core.minBet := same
  rw [minBet] at passes
  exact List.mem_filter.2 ⟨member, promising_rises below (first.quoteAt_nonneg member).1 passes⟩

end Screen

theorem Model.answers_rise {board other : Board} {s t : Strategy} {few more : Holdings}
    (left : Priceable board s) (right : Priceable other t) (eased : Eased board other s t)
    (fewWidth : few.length = optionCount) (fewHeld : ∀ x ∈ few, 0 ≤ x)
    (moreWidth : more.length = optionCount) (moreHeld : ∀ x ∈ more, 0 ≤ x)
    (order : ∀ i ∈ options, ownAt few i ≤ ownAt more i) :
    ∃ m n, price? board s few = .ok m ∧ price? other t more = .ok n ∧
      (∀ i ∈ options, ∀ stake price, Rises (m.value? i stake) (n.value? i stake) ∧
        Rises (m.marginal? i stake) (n.marginal? i stake) ∧
        Rises (m.optimum? i price) (n.optimum? i price)) ∧
      (s.minBet = t.minBet → ∃ kept wider, Screen.kept? board s = .ok kept ∧
        Screen.kept? other t = .ok wider ∧ kept ⊆ wider) := by
  have first := left.sound fewWidth fewHeld
  have second := right.sound moreWidth moreHeld
  refine ⟨_, _, left.price? fewWidth, right.price? moreWidth, ?_, ?_⟩
  · intro i member stake price
    have below := first.quoteAt_eased second eased.core member fun j inside =>
      order j (mem_grid.1 (Finset.mem_of_mem_erase inside))
    have rises := first.rises second member below stake price
    simp only [value?, marginal?, optimum?] at rises ⊢
    rwa [quote?_restated, quote?_restated]
  · intro same
    exact ⟨_, _, Screen.kept?_core left, Screen.kept?_core right,
      Screen.screened_rises left right eased same⟩

-- Nothing but the stakes, the skim and the reward of this board is as it should be.
def hardBoard : Board := ⟨options.map (100 * ·), [], 1090, -1, false, 7⟩

def easyBoard : Board := ⟨options.map (100 * ·), List.replicate 25 0, 500, 0, true, 9⟩

theorem Model.answers_rise_easy :
    ∃ m n, price? hardBoard ⟨0, 1, 10, 1, 800000000000, 2, 60, 2⟩ (options.map (3 * ·)) = .ok m ∧
      price? easyBoard ⟨50, 1, 10, 1, 900000000000, 2, 60, 2⟩ (options.map (5 * ·)) = .ok n ∧
      Rises (m.value? 4 90) (n.value? 4 90) ∧ Rises (m.optimum? 4 0) (n.optimum? 4 0) ∧
      ∃ kept wider, Screen.kept? hardBoard ⟨0, 1, 10, 1, 800000000000, 2, 60, 2⟩ = .ok kept ∧
        Screen.kept? easyBoard ⟨50, 1, 10, 1, 900000000000, 2, 60, 2⟩ = .ok wider ∧ kept ⊆ wider := by
  obtain ⟨m, n, pricing, repricing, rises, screens⟩ := @answers_rise hardBoard easyBoard
    ⟨0, 1, 10, 1, 800000000000, 2, 60, 2⟩ ⟨50, 1, 10, 1, 900000000000, 2, 60, 2⟩
    (options.map (3 * ·)) (options.map (5 * ·))
    ⟨by decide, by decide, by decide, by decide, by decide⟩
    ⟨by decide, by decide, by decide, by decide, by decide⟩
    ⟨by decide, by decide, by decide⟩ (by decide) (by decide) (by decide) (by decide) (by decide)
  obtain ⟨value, _, optimum⟩ := rises 4 (by decide) 90 0
  exact ⟨m, n, pricing, repricing, value, optimum, screens rfl⟩

end Parimutuel
