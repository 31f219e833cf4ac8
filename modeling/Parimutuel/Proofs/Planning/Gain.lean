import Parimutuel.Proofs.Planning.Promises
import Parimutuel.Proofs.Pricing.Sized

namespace Parimutuel

open Model (takenAt ownAt)

variable {board : Board} {s : Strategy} {t : Trace}

theorem Stakes.ownAt_against (m : Model) {stakes : Stakes} (nonneg : ∀ p ∈ stakes, 0 ≤ p.2) {i : Int}
    (member : i ∈ options) : stakes.amount i = ownAt (m.against stakes).holdings i := by
  have own : ownAt (m.against stakes).holdings i = max 0 (stakes.amount i) := stakes.ownAt_holdings member
  have least := stakes.amount_nonneg nonneg i
  omega

theorem contribution_of_zero {own : Int → Int} {i : Int} (none : own i = 0) :
    contribution board s own i = 0 := by
  rw [contribution, portion_of_zero none, none]
  simp

namespace Trace.Sound

theorem value_le (sound : t.Sound board s) (valid : board.Valid) (strategy : s.Valid) {i : Int}
    (member : i ∈ options) :
    ((t.snapped.model.quoteAt i).value (t.snapped.stakes.amount i) : ℚ) ≤
      contribution board s t.snapped.stakes.amount i := by
  have base := Model.bare_sound (s := s) valid strategy.unitValue_nonneg
  have nonneg : ∀ p ∈ t.snapped.stakes, 0 ≤ p.2 := fun p entry =>
    Int.le_of_lt (sound.kept.positive strategy p entry)
  rw [sound.kept.model]
  apply (base.against t.snapped.stakes).value_le_contribution member
  · intro j inside
    exact Stakes.ownAt_against _ nonneg (mem_grid.1 (Finset.mem_of_mem_erase inside))
  · exact Stakes.amount_nonneg nonneg i

theorem bet_gain (sound : t.Sound board s) (valid : board.Valid) (strategy : s.Valid) {bet : Bet}
    (member : bet ∈ t.bets) :
    1 ≤ jointGain board s t.snapped.stakes.amount -
      jointGain board s (Function.update t.snapped.stakes.amount bet.option 0) := by
  have pays := (sound.value? valid strategy.unitValue_nonneg member).2
  rw [sound.bets] at member
  obtain ⟨p, entry, rfl⟩ := List.mem_map.1 member
  have placed := sound.snapped_placed
  have known := placed.known p.1 (Stakes.numbers_of_mem entry)
  have least := sound.value_le valid strategy known
  rw [Stakes.amount_of_mem placed.distinct entry] at least
  rw [jointGain_update board s _ (mem_grid.2 known)]
  exact le_trans (by exact_mod_cast pays) least

theorem expected_le (sound : t.Sound board s) (valid : board.Valid) (strategy : s.Valid) :
    (t.expected : ℚ) - overlap board t.snapped.stakes.amount ≤
      jointGain board s t.snapped.stakes.amount := by
  have sum : t.expected =
      ∑ i ∈ grid, (t.snapped.model.quoteAt i).value (t.snapped.stakes.amount i) := by
    rw [sound.expected]
    exact Stakes.sumOf_eq_sum_amount (f := fun i x => (t.snapped.model.quoteAt i).value x)
      sound.snapped_placed fun i => rfl
  have each : ∑ i ∈ grid, ((t.snapped.model.quoteAt i).value (t.snapped.stakes.amount i) : ℚ) ≤
      ∑ i ∈ grid, contribution board s t.snapped.stakes.amount i :=
    Finset.sum_le_sum fun i inside => sound.value_le valid strategy (mem_grid.1 inside)
  rw [← jointGain_add_overlap] at each
  rw [sum]
  push_cast
  linarith

end Trace.Sound

theorem Screen.flat_value_pos {i : Int} (member : i ∈ screened board s) (unstaked : takenAt board i = 0) :
    0 < ((Model.bare board s).quoteAt i).value s.minBet := by
  have passes := (List.mem_filter.1 member).2
  have none : ((Model.bare board s).quoteAt i).taken = 0 := unstaked
  rw [promising, if_pos none] at passes
  exact of_decide_eq_true passes

-- The smallest bet on an option that nobody staked pays out of what the others lose.
theorem Screen.flat_pays (valid : board.Valid) (strategy : s.Valid) {i : Int}
    (member : i ∈ screened board s) (unstaked : takenAt board i = 0) :
    24 * (s.minBet : ℚ) < pot board s (fun _ => 0) i := by
  have base := Model.bare_sound (s := s) valid strategy.unitValue_nonneg
  have positive := strategy.minBet_pos
  have gained : (0 : ℚ) < ((Model.bare board s).quoteAt i).value s.minBet :=
    Int.cast_pos.2 (flat_value_pos member unstaked)
  have nobody : ∀ j ∈ grid.erase i, lone i s.minBet j = ownAt (Model.bare board s).holdings j :=
    fun j inside => (lone_rival inside).trans (Holdings.ownAt_none j).symm
  have least := base.value_le_contribution (screened_known board s i member) nobody
    ((lone_self i s.minBet).symm ▸ Int.le_of_lt positive)
  change _ ≤ contribution board s (lone i s.minBet) i at least
  rw [lone_self, contribution_lone unstaked positive] at least
  linarith

namespace Trace.Sound

theorem chosen_first (sound : t.Sound board s) (once : s.passes = 0) :
    t.chosen = Planner.search (Model.bare board s) t.candidates (Planner.terms s t.budget) t.funded := by
  rw [sound.chosen, sound.budget, Planner.searched, once]
  rfl

theorem funded_unstaked (sound : t.Sound board s) {i : Int} (member : i ∈ t.funded.numbers) :
    i ∈ Screen.screened board s ∧ takenAt board i = 0 := by
  obtain ⟨candidate, none⟩ := List.mem_filter.1 (sound.funded_flat i member)
  rw [sound.candidates] at candidate
  exact ⟨candidate, eq_of_beq none⟩

theorem funded_pays (sound : t.Sound board s) (valid : board.Valid) (strategy : s.Valid) :
    (Model.bare board s).Pays t.funded := by
  intro p member
  have base := Model.bare_sound (s := s) valid strategy.unitValue_nonneg
  obtain ⟨candidate, unstaked⟩ := sound.funded_unstaked (Stakes.numbers_of_mem member)
  have known := Screen.screened_known board s p.1 candidate
  have below := Model.quoteAt_below base (base.against t.funded) rfl rfl known fun j _ =>
    (Holdings.ownAt_none j).symm ▸ Model.ownAt_nonneg (base.against t.funded).held j
  rw [sound.funded_amount member]
  exact Int.lt_of_lt_of_le (Screen.flat_value_pos candidate unstaked)
    (below.value (base.quoteAt_nonneg known).1 s.minBet)

theorem funded_kept (sound : t.Sound board s) (valid : board.Valid) (strategy : s.Valid) :
    t.funded ⊆ t.snapped.stakes := by
  apply sound.kept.greatest t.funded _ (sound.funded_pays valid strategy)
  intro p member
  have amount := sound.funded_amount member
  apply Snap.mem_trimmed.2
  refine ⟨p, (Stakes.sorted_perm _).mem_iff.2 (List.mem_append_right _ member), ?_, ?_⟩
  · rw [amount, Snap.onTick_of_dvd strategy.minBet_tick]
  · rw [amount, Snap.cut_minBet strategy, ← amount]

theorem bets_of_unstaked (sound : t.Sound board s) (valid : board.Valid) (strategy : s.Valid)
    (enough : s.minBet ≤ s.bankroll) {i : Int} (candidate : i ∈ Screen.screened board s)
    (unstaked : takenAt board i = 0) : t.bets ≠ [] := by
  have flat : i ∈ Planner.flat (Model.bare board s) (Screen.screened board s) :=
    List.mem_filter.2 ⟨candidate, beq_iff_eq.2 unstaked⟩
  have rank := (Planner.ranked_perm _).mem_iff.2 (List.mem_map_of_mem (f := Prod.fst) (List.mem_map_of_mem
    (f := fun i => (i, ((Model.bare board s).quoteAt i).value s.minBet)) flat))
  obtain ⟨first, rest, ranked⟩ := List.exists_cons_of_ne_nil (List.ne_nil_of_mem rank)
  have funded : (first, s.minBet) ∈ t.funded := by
    rw [sound.funded, sound.candidates, Planner.fundFlat, ranked, Planner.fund, if_neg (Int.not_lt.2 enough)]
    exact List.mem_cons_self
  rw [sound.bets]
  exact List.ne_nil_of_mem (List.mem_map_of_mem (sound.funded_kept valid strategy funded))

theorem snapped_cases (sound : t.Sound board s) (strategy : s.Valid) (once : s.passes = 0)
    {p : Int × Int} (member : p ∈ t.snapped.stakes) :
    p ∈ t.funded ∨ ∃ price, 0 ≤ price ∧
      p.2 ≤ (((Model.bare board s).against t.funded).quoteAt p.1).peak price := by
  rcases sound.snapped_origin strategy member with held | ⟨q, found, same, _, cut⟩
  · exact .inl held
  · rw [sound.chosen_first once] at found
    obtain ⟨price, peak⟩ := ShadowPrice.solution_le_peak found
    exact .inr ⟨_, price, Int.le_trans cut (same ▸ peak)⟩

theorem funded_nonneg (sound : t.Sound board s) (strategy : s.Valid) : ∀ p ∈ t.funded, 0 ≤ p.2 := by
  intro p member
  rw [sound.funded_amount member]
  exact Int.le_of_lt strategy.minBet_pos

theorem funded_of_amount (sound : t.Sound board s) {i : Int} (some : 0 < t.funded.amount i) :
    t.funded.amount i = s.minBet ∧ i ∈ Screen.screened board s ∧ takenAt board i = 0 := by
  have entry := Stakes.mem_of_amount (Int.ne_of_gt some)
  exact ⟨sound.funded_amount entry, sound.funded_unstaked (Stakes.numbers_of_mem entry)⟩

theorem kept_amount (sound : t.Sound board s) (valid : board.Valid) (strategy : s.Valid) {i : Int}
    (some : 0 < t.funded.amount i) : t.snapped.stakes.amount i = t.funded.amount i := by
  have entry := sound.funded_kept valid strategy (Stakes.mem_of_amount (Int.ne_of_gt some))
  exact Stakes.amount_of_mem sound.snapped_placed.distinct entry

theorem searched_amount (sound : t.Sound board s) (strategy : s.Valid) (once : s.passes = 0) {i : Int}
    (fresh : t.funded.amount i = 0) (staked : 0 < t.snapped.stakes.amount i) :
    ∃ price, 0 ≤ price ∧ t.snapped.stakes.amount i ≤
      (((Model.bare board s).against t.funded).quoteAt i).peak price := by
  rcases sound.snapped_cases strategy once (Stakes.mem_of_amount (Int.ne_of_gt staked)) with held | found
  · have same := Stakes.amount_of_mem sound.funded_placed.distinct held
    change t.funded.amount i = t.snapped.stakes.amount i at same
    omega
  · exact found

-- The bets of a single search were sized against nothing but bets that are kept.
theorem sized (sound : t.Sound board s) (valid : board.Valid) (strategy : s.Valid) (once : s.passes = 0) :
    Sized board s t.funded.amount t.snapped.stakes.amount where
  nonneg := fun i _ => Stakes.amount_nonneg (sound.funded_nonneg strategy) i
  grown := by
    intro i _
    have own := Stakes.amount_nonneg
      (fun p member => Int.le_of_lt (sound.kept.positive strategy p member)) i
    by_cases some : 0 < t.funded.amount i
    · exact Int.le_of_eq (sound.kept_amount valid strategy some).symm
    · omega
  kept := fun i _ some => sound.kept_amount valid strategy some
  unstaked := fun i _ some => (sound.funded_of_amount some).2.2
  flat := by
    intro i _ some
    obtain ⟨amount, candidate, none⟩ := sound.funded_of_amount some
    rw [amount]
    exact Screen.flat_pays valid strategy candidate none
  sized := by
    intro i inside fresh staked
    have base := Model.bare_sound (s := s) valid strategy.unitValue_nonneg
    obtain ⟨price, free, peak⟩ := sound.searched_amount strategy once fresh staked
    apply (base.against t.funded).peak_pays (mem_grid.1 inside) free staked peak
    intro j rival
    have known := mem_grid.1 (Finset.mem_of_mem_erase rival)
    exact Stakes.ownAt_against _ (sound.funded_nonneg strategy) known

theorem gain_pos (sound : t.Sound board s) (valid : board.Valid) (strategy : s.Valid) (once : s.passes = 0)
    (some : t.bets ≠ []) : 0 < jointGain board s t.snapped.stakes.amount := by
  obtain ⟨p, entry⟩ : ∃ p, p ∈ t.snapped.stakes := by
    apply List.exists_mem_of_ne_nil
    intro nothing
    rw [sound.bets, nothing] at some
    exact some rfl
  have placed := sound.snapped_placed
  have known := placed.known p.1 (Stakes.numbers_of_mem entry)
  have staked : 0 < t.snapped.stakes.amount p.1 := by
    rw [Stakes.amount_of_mem placed.distinct entry]
    exact sound.kept.positive strategy p entry
  exact (sound.sized valid strategy once).jointGain_pos valid (mem_grid.2 known) staked

end Trace.Sound

theorem planned_bets_of_unstaked {room : Nat} {round : Round} (valid : board.Valid) (strategy : s.Valid)
    (run : planObserved? room board.observed s.drafted = .ok round) (due : Planner.idle? board s = none)
    (enough : s.minBet ≤ s.bankroll) {i : Int} (candidate : i ∈ Screen.screened board s)
    (unstaked : takenAt board i = 0) : round.plan.bets ≠ [] := by
  obtain ⟨other, again, -, same, planned⟩ :=
    planObserved?_planned valid.check?_observed strategy.check?_drafted
  cases run.symm.trans again
  obtain ⟨t, sound, full⟩ := planned.plan_full same due (List.ne_nil_of_mem candidate)
  rw [full]
  exact sound.bets_of_unstaked valid strategy enough candidate unstaked

theorem planObserved?_gain {room : Nat} {o : Observation} {d : Draft} (seen : o.check? room = .ok board)
    (drafted : d.check? room = .ok s) :
    ∃ round, planObserved? room o d = .ok round ∧
      (∀ bet ∈ round.plan.bets, 1 ≤ jointGain board s round.plan.stakes.amount -
        jointGain board s (Function.update round.plan.stakes.amount bet.option 0)) ∧
      (round.plan.expected : ℚ) - overlap board round.plan.stakes.amount ≤
        jointGain board s round.plan.stakes.amount ∧
      (s.passes = 0 → round.plan.bets ≠ [] → 0 < jointGain board s round.plan.stakes.amount) := by
  have strategy := (Draft.check?_eq_ok_iff.1 drafted).2
  have valid := (Observation.check?_eq_ok_iff.1 seen).2
  obtain ⟨round, run, -, same, planned⟩ := planObserved?_planned seen drafted
  refine ⟨round, run, ?_⟩
  rcases planned.plan_cases same with ⟨reason, empty⟩ | ⟨t, sound, full⟩
  · rw [empty]
    refine ⟨?_, ?_, fun _ some => absurd rfl some⟩
    · intro bet member
      cases member
    · have both := jointGain_add_overlap board s (Stakes.amount [])
      rw [Finset.sum_eq_zero fun i _ => contribution_of_zero rfl] at both
      change ((0 : Int) : ℚ) - overlap board (Stakes.amount []) ≤ jointGain board s (Stakes.amount [])
      push_cast
      linarith
  · rw [full, sound.plan_stakes]
    exact ⟨fun bet member => sound.bet_gain valid strategy member, sound.expected_le valid strategy,
      fun once some => sound.gain_pos valid strategy once some⟩

-- One search among options that are staked and one that is not.
theorem planObserved?_gain_once :
    ∃ round, planObserved? 0 slanted.observed
        (Strategy.drafted ⟨700, 90, 4, 2, rewardScale, 2, 60, 0⟩) = .ok round ∧ round.plan.bets ≠ [] ∧
      0 < jointGain slanted ⟨700, 90, 4, 2, rewardScale, 2, 60, 0⟩ round.plan.stakes.amount := by
  have board : slanted.Valid := by decide
  have strategy : Strategy.Valid ⟨700, 90, 4, 2, rewardScale, 2, 60, 0⟩ := by decide
  obtain ⟨round, run, -, -, gain⟩ := planObserved?_gain board.check?_observed strategy.check?_drafted
  have some := planned_bets_of_unstaked board strategy run (by decide) (by decide)
    (show 0 ∈ Screen.screened slanted _ by decide) (by decide)
  exact ⟨round, run, some, gain rfl some⟩

-- Six options that others staked well and nineteen that they hardly did. The search counts on what
-- it would put on the nineteen, which is below the smallest bet.
def crowded : Board :=
  ⟨List.replicate 6 1000 ++ List.replicate 19 1, List.replicate 25 0, 0, 1, true, 22000⟩

def hopeful : Strategy :=
  { bankroll := 10000, cap := 200, minBet := 200, tick := 200, unitValue := rewardScale }

def tiered (x y : Int) : Stakes := options.map fun i => (i, if i < 6 then x else y)

theorem tiered_numbers (x y : Int) : (tiered x y).numbers = options := by
  rw [tiered, Stakes.numbers, List.map_map]
  exact List.map_id options

theorem tiered_ascending (x y : Int) : (tiered x y).numbers.Pairwise (· < ·) := by
  rw [tiered_numbers]
  decide

theorem tiered_search {terms : Terms} {held : Stakes} {x y : Int}
    (somebody : Planner.staked (Model.bare board s) options ≠ []) (bankroll : 0 < terms.bankroll)
    (enough : ShadowPrice.spending ((Model.bare board s).against held) terms.cap
      (Planner.staked (Model.bare board s) options).eraseDups 0 ≤ terms.bankroll)
    (wishes : (ShadowPrice.demand ((Model.bare board s).against held) terms.cap
      (Planner.staked (Model.bare board s) options).eraseDups 0).positive = tiered x y) :
    (Planner.search (Model.bare board s) options terms held).stakes = tiered x y :=
  ShadowPrice.solution_saturated somebody bankroll enough wishes (tiered_ascending x y)

theorem tiered_searched (x y x' y' x'' y'' : Int) (twice : s.passes = 2)
    (first : (Planner.search (Model.bare board s) options (Planner.terms s s.bankroll) []).stakes =
      tiered x y)
    (second : (Planner.search (Model.bare board s) options (Planner.terms s s.bankroll)
      (tiered x y)).stakes = tiered x' y')
    (third : (Planner.search (Model.bare board s) options (Planner.terms s s.bankroll)
      (tiered x' y')).stakes = tiered x'' y'')
    (moved : tiered x' y' ≠ tiered x y) (again : tiered x'' y'' ≠ tiered x' y') :
    (Planner.searched (Model.bare board s) options s []).1.stakes = tiered x'' y'' := by
  have merge : ∀ x y, Stakes.merge [] (tiered x y) = tiered x y := fun x y =>
    Stakes.ofPairs_distinct ((tiered_ascending x y).imp fun less => Int.ne_of_lt less)
  rw [Planner.searched, twice, Stakes.total_nil, Int.sub_zero]
  change (Planner.refined _ [] 2 _).1.stakes = _
  simp only [Planner.refined, first, merge, second, third, if_neg moved, if_neg again]

theorem crowded_searched :
    (Planner.searched (Model.bare crowded hopeful) options hopeful []).1.stakes = tiered 200 75 := by
  have somebody : Planner.staked (Model.bare crowded hopeful) options ≠ [] := by decide +kernel
  have bankroll : 0 < (Planner.terms hopeful hopeful.bankroll).bankroll := by decide
  apply tiered_searched 61 33 200 67 200 75 rfl
  · exact tiered_search somebody bankroll (by decide +kernel) (by decide +kernel)
  · exact tiered_search somebody bankroll (by decide +kernel) (by decide +kernel)
  · exact tiered_search somebody bankroll (by decide +kernel) (by decide +kernel)
  · decide
  · decide

theorem Trace.Sound.everybody_staked (sound : t.Sound board s) (screened : Screen.screened board s = options)
    (staked : Planner.flat (Model.bare board s) options = []) : t.candidates = options ∧ t.funded = [] := by
  have candidates : t.candidates = options := sound.candidates.trans screened
  refine ⟨candidates, ?_⟩
  rw [sound.funded, candidates, Planner.fundFlat, staked, List.map_nil, Planner.ranked,
    List.mergeSort_nil]
  rfl

theorem Trace.Sound.tiered_kept {x y : Int} (sound : t.Sound board s)
    (screened : Screen.screened board s = options)
    (staked : Planner.flat (Model.bare board s) options = [])
    (searched : (Planner.searched (Model.bare board s) options s []).1.stakes = tiered x y) :
    Snap.Kept (Model.bare board s) (Snap.trimmed s (tiered x y)) t.snapped := by
  obtain ⟨candidates, funded⟩ := sound.everybody_staked screened staked
  have chosen : t.chosen.stakes = tiered x y := by
    rw [sound.chosen, candidates, funded]
    exact searched
  have kept := sound.kept
  rwa [chosen, funded, List.append_nil, Stakes.sorted_of_numbers (tiered_ascending x y)] at kept

theorem planObserved?_loses :
    crowded.observed.check? 0 = .ok crowded ∧ hopeful.drafted.check? 0 = .ok hopeful ∧
      ∃ round, planObserved? 0 crowded.observed hopeful.drafted = .ok round ∧
        round.plan.stakes = [(0, 200), (1, 200), (2, 200), (3, 200), (4, 200), (5, 200)] ∧
        jointGain crowded hopeful round.plan.stakes.amount < 0 := by
  have seen : crowded.observed.check? 0 = .ok crowded := Board.Valid.check?_observed (by decide)
  have drafted : hopeful.drafted.check? 0 = .ok hopeful := Strategy.Valid.check?_drafted (by decide)
  have screened : Screen.screened crowded hopeful = options := by decide +kernel
  obtain ⟨round, run, -, same, planned⟩ := planObserved?_planned seen drafted
  obtain ⟨t, sound, full⟩ := planned.plan_full same (by decide) (screened ▸ by decide)
  have stakes : t.snapped.stakes = [(0, 200), (1, 200), (2, 200), (3, 200), (4, 200), (5, 200)] := by
    have kept := sound.tiered_kept screened (by decide +kernel) crowded_searched
    rw [show Snap.trimmed hopeful (tiered 200 75) =
      [(0, 200), (1, 200), (2, 200), (3, 200), (4, 200), (5, 200)] by decide +kernel] at kept
    apply kept.all (by decide)
    unfold Model.Pays
    decide +kernel
  refine ⟨seen, drafted, round, run, ?_⟩
  rw [full, sound.plan_stakes, stakes]
  exact ⟨rfl, by decide +kernel⟩

end Parimutuel
