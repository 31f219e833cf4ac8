import Parimutuel.Proofs.Planning.Promises
import Parimutuel.Proofs.Search.Convergence

namespace Parimutuel

open Model (takenAt ownAt prizeAt)

variable {board : Board} {s : Strategy} {t : Trace} {n : Nat} {i : Int}

-- The first unit is worth no more than its part of the prize, spread over the options.
theorem Quote.marginal_zero_lt {q : Quote} (staked : 0 < q.taken) (cross : q.cross ≤ maxCross)
    (often : q.prize * wad < optionCount * 2 ^ n * q.taken) : q.marginal 0 < 2 ^ n := by
  have slope : q.slope 0 < optionCount * 2 ^ n := by
    rw [slope_eq (Int.le_of_lt staked), Int.add_zero]
    apply Int.ediv_lt_of_lt_mul (Int.mul_pos staked staked)
    calc q.weight = q.taken * (q.prize * wad) := by rw [weight, Int.mul_assoc]
      _ < q.taken * (optionCount * 2 ^ n * q.taken) := Int.mul_lt_mul_of_pos_left often staked
      _ = optionCount * 2 ^ n * (q.taken * q.taken) := by rw [Int.mul_left_comm]
  rw [marginal, Int.max_self, optionCount_cast]
  rw [optionCount_cast] at slope
  rw [maxCross] at cross
  omega

theorem Stakes.holdings_total {held : Stakes} (placed : held.Placed) (nonneg : ∀ p ∈ held, 0 ≤ p.2) :
    held.holdings.total = held.total := by
  rw [holdings, Holdings.total, sumOf_map_options, total_eq_sum placed]
  exact Finset.sum_congr rfl fun i _ => Int.max_eq_right (amount_nonneg nonneg i)

namespace Model

-- What can be won on an option besides the stakes on it, with the whole bankroll on other options.
def mostPrize (board : Board) (s : Strategy) (i : Int) : Int :=
  board.keep * (board.total - takenAt board i + s.bankroll) / bpsScale +
    rewardValue board.reward s.unitValue

theorem prizeAt_le_mostPrize {holdings : Holdings} (valid : board.Valid) (held : ∀ x ∈ holdings, 0 ≤ x)
    (within : holdings.total ≤ s.bankroll) (i : Int) : prizeAt board s holdings i ≤ mostPrize board s i := by
  have own := ownAt_nonneg held i
  have pool : board.total - takenAt board i + holdings.total - ownAt holdings i ≤
      board.total - takenAt board i + s.bankroll := by omega
  exact Int.add_le_add_right (Int.ediv_le_ediv (by decide)
    (Int.mul_le_mul_of_nonneg_left pool (keep_nonneg valid))) _

theorem mostPrize_le (valid : board.Valid) (strategy : s.Valid) (member : i ∈ options)
    (stakes : ∀ x ∈ board.stakes, x < 2 ^ 64) (bankroll : s.bankroll < 2 ^ 64)
    (reward : rewardValue board.reward s.unitValue < 2 ^ 64) : mostPrize board s i ≤ 26 * (2 ^ 64 - 1) := by
  have each : ∀ j, takenAt board j ≤ 2 ^ 64 - 1 := fun j =>
    takenAt_le (by decide) (fun x member => Int.le_sub_one_of_lt (stakes x member)) j
  have others : board.total - takenAt board i ≤ 24 * (2 ^ 64 - 1) := by
    have taken : board.total = ∑ j ∈ grid, takenAt board j := sumOf_getD valid.stakes_length
    have bound := Finset.sum_le_card_nsmul (grid.erase i) (takenAt board) (2 ^ 64 - 1) fun j _ => each j
    rw [card_rivals member] at bound
    rw [taken, ← Finset.add_sum_erase grid _ (mem_grid.2 member)]
    simpa using bound
  have nonneg : 0 ≤ board.total - takenAt board i := by
    rw [Board.total, sub_nonneg]
    exact getD_le_sumOf valid.stakes_nonneg i.toNat
  have keep : board.keep ≤ bpsScale := Int.sub_le_self _ valid.skim_nonneg
  have least := strategy.bankroll_nonneg
  have pool : board.keep * (board.total - takenAt board i + s.bankroll) / bpsScale ≤
      board.total - takenAt board i + s.bankroll := by
    apply Int.ediv_le_of_le_mul (by decide)
    rw [Int.mul_comm]
    exact Int.mul_le_mul_of_nonneg_left keep (by omega)
  unfold mostPrize
  omega

end Model

structure Stakes.Covered (held : Stakes) (bankroll : Int) : Prop where
  placed : held.Placed
  nonneg : ∀ p ∈ held, 0 ≤ p.2
  within : held.total ≤ bankroll

-- Enough halvings for whatever an option may be worth at first.
def Strategy.Spans (s : Strategy) (board : Board) (i : Int) : Prop :=
  0 < takenAt board i →
    Model.mostPrize board s i * wad < optionCount * 2 ^ s.iterations.toNat * takenAt board i

namespace Planner

variable {candidates : List Int} {held : Stakes} {budget : Int}

theorem first_marginal_lt (valid : board.Valid) (strategy : s.Valid) (covered : held.Covered s.bankroll)
    (member : i ∈ options) (staked : 0 < takenAt board i) (spans : s.Spans board i) :
    (((Model.bare board s).against held).quoteAt i).marginal 0 < 2 ^ s.iterations.toNat := by
  have sound := (Model.bare_sound valid strategy.unitValue_nonneg).against held
  have total := Stakes.holdings_total covered.placed covered.nonneg
  have prize : (((Model.bare board s).against held).quoteAt i).prize ≤ Model.mostPrize board s i :=
    Model.prizeAt_le_mostPrize valid held.holdings_nonneg (total ▸ covered.within) i
  apply Quote.marginal_zero_lt staked (sound.cross_le member)
  exact Int.lt_of_le_of_lt (Int.mul_le_mul_of_nonneg_right prize (Int.le_of_lt wad_pos)) (spans staked)

theorem search_converges (valid : board.Valid) (strategy : s.Valid) (known : ∀ i ∈ candidates, i ∈ options)
    (covered : held.Covered s.bankroll) (spans : ∀ i ∈ candidates, s.Spans board i) :
    (search (Model.bare board s) candidates (terms s budget) held).converged = true := by
  have sound := (Model.bare_sound valid strategy.unitValue_nonneg).against held
  by_cases idle : staked (Model.bare board s) candidates = [] ∨ budget ≤ 0
  · simp [search, ShadowPrice.solution, terms, idle]
  · obtain ⟨somebody, bankroll⟩ := not_or.1 idle
    have cap : 0 ≤ (terms s budget).cap := Int.le_of_lt strategy.cap_pos
    have money : 0 < (terms s budget).bankroll := Int.not_le.1 bankroll
    apply ShadowPrice.solution_converged sound (staked_known known) cap somebody money
    rw [ShadowPrice.ceiling_le_iff]
    refine ⟨one_le_pow₀ (by decide), ?_⟩
    intro i member
    obtain ⟨candidate, some⟩ := mem_staked.1 member
    have taken : 0 < takenAt board i := lt_of_le_of_ne (Model.takenAt_nonneg valid i) (Ne.symm some)
    exact first_marginal_lt valid strategy covered (known i candidate) taken (spans i candidate)

end Planner

namespace Trace.Sound

variable (sound : t.Sound board s) (strategy : s.Valid)

include sound strategy

theorem covered_funded : t.funded.Covered s.bankroll := by
  refine ⟨sound.funded_placed, ?_, sound.funded_total_le strategy⟩
  intro p member
  rw [sound.funded_amount member]
  exact Int.le_of_lt strategy.minBet_pos

theorem covered_pass (held : Stakes) :
    (t.funded.merge (Planner.search (Model.bare board s) t.candidates (Planner.terms s t.budget)
      held).stakes).Covered s.bankroll := by
  have ahead := sound.covered_funded strategy
  have budget := sound.budget
  have cap : 0 ≤ (Planner.terms s t.budget).cap := Int.le_of_lt strategy.cap_pos
  have known : ∀ i ∈ t.candidates, i ∈ options := sound.candidates ▸ Screen.screened_known board s
  have found : (Planner.search (Model.bare board s) t.candidates (Planner.terms s t.budget)
      held).stakes.Placed := Planner.search_placed known
  have apart : ∀ i ∈ t.funded.numbers, i ∉ (Planner.search (Model.bare board s) t.candidates
      (Planner.terms s t.budget) held).stakes.numbers := sound.funded ▸ Planner.search_apart
  rw [ahead.placed.merge found apart]
  refine ⟨ahead.placed.append found apart, ?_, ?_⟩
  · intro p member
    rcases List.mem_append.1 member with first | second
    · exact ahead.nonneg p first
    · exact Int.le_of_lt (ShadowPrice.solution_mem second).2.1
  · have total := ShadowPrice.solution_total ((Model.bare board s).against held)
      (Planner.staked (Model.bare board s) t.candidates) cap
    have most := ShadowPrice.solution_aggregate_le ((Model.bare board s).against held)
      (Planner.staked (Model.bare board s) t.candidates) (Planner.terms s t.budget)
    have left := ahead.within
    rw [Stakes.total_append, Planner.search, total]
    change _ ≤ max 0 t.budget at most
    omega

theorem converges (valid : board.Valid) (spans : ∀ i ∈ Screen.screened board s, s.Spans board i) :
    t.chosen.converged = true := by
  have known : ∀ i ∈ t.candidates, i ∈ options := sound.candidates ▸ Screen.screened_known board s
  have budget := sound.budget
  rw [← sound.candidates] at spans
  rw [sound.chosen, Planner.searched, ← budget]
  apply Planner.refined_keeps (Q := fun r => r.converged = true)
  · intro held
    exact Planner.search_converges valid strategy known (sound.covered_pass strategy held) spans
  · exact Planner.search_converges valid strategy known (sound.covered_funded strategy) spans

end Trace.Sound

theorem Strategy.spans_word (valid : board.Valid) (strategy : s.Valid) (member : i ∈ options)
    (stakes : ∀ x ∈ board.stakes, x < 2 ^ 64) (bankroll : s.bankroll < 2 ^ 64)
    (reward : rewardValue board.reward s.unitValue < 2 ^ 64) (often : 124 ≤ s.iterations) :
    s.Spans board i := by
  intro staked
  have prize := Model.mostPrize_le valid strategy member stakes bankroll reward
  have power : (2 : Int) ^ 124 ≤ 2 ^ s.iterations.toNat := pow_le_pow_right₀ (by decide) (by omega)
  have wide : (2 : Int) ^ s.iterations.toNat ≤ 2 ^ s.iterations.toNat * takenAt board i :=
    le_mul_of_one_le_right (by positivity) staked
  rw [optionCount_cast, Int.mul_assoc, wad]
  omega

theorem planObserved?_converges {room : Nat} {o : Observation} {d : Draft} (seen : o.check? room = .ok board)
    (drafted : d.check? room = .ok s) :
    ∃ round candidates, planObserved? room o d = .ok round ∧ Screen.kept? board s = .ok candidates ∧
      ((∀ i ∈ candidates, 0 < takenAt board i →
          Model.mostPrize board s i * wad < optionCount * 2 ^ s.iterations.toNat * takenAt board i) →
        round.plan.converged = true) ∧
      ((∀ x ∈ board.stakes, x < 2 ^ 64) → s.bankroll < 2 ^ 64 →
        rewardValue board.reward s.unitValue < 2 ^ 64 → 124 ≤ s.iterations →
        round.plan.converged = true) := by
  have strategy := (Draft.check?_eq_ok_iff.1 drafted).2
  have valid := (Observation.check?_eq_ok_iff.1 seen).2
  obtain ⟨round, run, -, same, planned⟩ := planObserved?_planned seen drafted
  have converges : (∀ i ∈ Screen.screened board s, s.Spans board i) → round.plan.converged = true := by
    intro spans
    rcases planned.plan_cases same with ⟨reason, empty⟩ | ⟨t, sound, full⟩
    · rw [empty]
      rfl
    · rw [full]
      exact sound.converges strategy valid spans
  refine ⟨round, _, run, Screen.kept?_ok valid strategy.unitValue_nonneg, converges, ?_⟩
  intro stakes bankroll reward often
  apply converges
  intro i member
  exact Strategy.spans_word valid strategy (Screen.screened_known board s i member) stakes bankroll reward
    often

-- Two options that hardly anybody staked, against a pool that a single unit on one of them is to win.
def steep : Board := ⟨[1, 1] ++ List.replicate 23 20, List.replicate 25 0, defaultSkim, 1, true, 0⟩

def frugal : Strategy := { bankroll := 3, cap := 100, minBet := 1 }

theorem planObserved?_converges_steep :
    ∃ round, planObserved? 0 steep.observed (Strategy.drafted { frugal with iterations := 124 }) = .ok round ∧
      round.plan.converged = true := by
  have board : steep.Valid := by decide
  have strategy : Strategy.Valid { frugal with iterations := 124 } := by decide
  obtain ⟨round, _, run, _, _, word⟩ := planObserved?_converges board.check?_observed strategy.check?_drafted
  exact ⟨round, run, word (by decide) (by decide) (by decide) (by decide)⟩

def shared : Stakes := [(0, 1), (1, 1)]

def steepPass (held : Stakes) : Solution :=
  Planner.search (Model.bare steep frugal) [0, 1] (Planner.terms frugal 3) held

theorem steepPass_shared (held : Stakes)
    (exceeded : 3 < ShadowPrice.spending ((Model.bare steep frugal).against held) 100 [0, 1] 0)
    (wishes : ShadowPrice.demand ((Model.bare steep frugal).against held) 100 [0, 1]
      (ShadowPrice.settled ((Model.bare steep frugal).against held) [0, 1]
        (Planner.terms frugal 3)).1.high = shared) :
    (steepPass held).stakes = shared ∧ (steepPass held).converged =
      (ShadowPrice.settled ((Model.bare steep frugal).against held) [0, 1]
        (Planner.terms frugal 3)).1.closed
        (ShadowPrice.spending ((Model.bare steep frugal).against held) 100 [0, 1])
        (Planner.terms frugal 3) := by
  have base : (Model.bare steep frugal).Sound := Model.bare_sound (by decide) (by decide)
  have sound := base.against held
  have everybody : Planner.staked (Model.bare steep frugal) [0, 1] = [0, 1] := by decide
  rw [steepPass, Planner.search, everybody]
  constructor
  · apply ShadowPrice.solution_settled sound (by decide) (by decide) (by decide) (by decide) exceeded
    · exact (congrArg Stakes.positive wishes).trans (show shared.positive = shared by decide)
    · decide
  · rw [ShadowPrice.solution_searched sound (by decide) (by decide) (by decide) (by decide) exceeded]
    rfl

-- The first pass ends with an open window, and the second hands out the same.
theorem steep_searched :
    (Planner.searched (Model.bare steep frugal) [0, 1] frugal []).1.converged = false := by
  obtain ⟨first, opened⟩ := steepPass_shared [] (by decide +kernel) (by decide +kernel)
  obtain ⟨second, _⟩ := steepPass_shared shared (by decide +kernel) (by decide +kernel)
  have again : (steepPass (Stakes.merge [] (steepPass []).stakes)).stakes = (steepPass []).stakes := by
    have merge : Stakes.merge [] shared = shared := Stakes.ofPairs_distinct (by decide)
    rw [first, merge, second]
  change (Planner.refined steepPass [] 2 (steepPass [])).1.converged = false
  rw [Planner.refined, if_pos again, opened]
  decide +kernel

theorem planObserved?_unconverged :
    steep.observed.check? 0 = .ok steep ∧ frugal.drafted.check? 0 = .ok frugal ∧ frugal.iterations = 60 ∧
      (∀ x ∈ steep.stakes, x < 2 ^ 64) ∧ frugal.bankroll < 2 ^ 64 ∧ frugal.cap < 2 ^ 64 ∧
      rewardValue steep.reward frugal.unitValue < 2 ^ 64 ∧
      ∃ round, planObserved? 0 steep.observed frugal.drafted = .ok round ∧ round.plan.converged = false := by
  have seen : steep.observed.check? 0 = .ok steep := Board.Valid.check?_observed (by decide)
  have drafted : frugal.drafted.check? 0 = .ok frugal := Strategy.Valid.check?_drafted (by decide)
  have screened : Screen.screened steep frugal = [0, 1] := by decide +kernel
  obtain ⟨round, run, -, same, planned⟩ := planObserved?_planned seen drafted
  obtain ⟨t, sound, full⟩ := planned.plan_full same (by decide) (screened ▸ by decide)
  have candidates : t.candidates = [0, 1] := sound.candidates.trans screened
  have funded : t.funded = [] := by
    rw [sound.funded, candidates, Planner.fundFlat,
      show Planner.flat (Model.bare steep frugal) [0, 1] = [] by decide]
    simp [Planner.ranked, Planner.fund]
  refine ⟨seen, drafted, rfl, by decide, by decide, by decide, by decide, round, run, ?_⟩
  rw [full]
  change t.chosen.converged = false
  rw [sound.chosen, candidates, funded]
  exact steep_searched

end Parimutuel
