import Parimutuel.Proofs.Planning.Course

namespace Parimutuel

variable {board : Board} {s : Strategy}

theorem Plan.empty_reason (bankroll : Int) (reason : Reason) :
    (Plan.empty bankroll reason).reason ≠ [] := by
  intro nothing
  have word : Text.toString (Text.ofString reason.word) = reason.word :=
    Text.toString_ofString reason.word
  have none : Text.ofString reason.word = [] := nothing
  rw [none] at word
  exact reason.word_ne_empty word.symm

theorem Course.Planned.plan_cases {round : Round} (same : round.strategy = s)
    (planned : Course.Planned board s round.course) :
    (∃ reason, round.plan = .empty s.bankroll reason) ∨
      ∃ t : Trace, t.Sound board s ∧ round.plan = t.plan s.bankroll := by
  obtain ⟨seen, strategy, course⟩ := round
  subst same
  cases planned with
  | idle reason early => exact .inl ⟨reason, rfl⟩
  | hopeless due nobody => exact .inl ⟨.noPositiveValue, rfl⟩
  | full t due somebody sound => exact .inr ⟨t, sound, rfl⟩

section Course

variable {round : Round} (same : round.strategy = s) (planned : Course.Planned board s round.course)

include same planned

theorem Course.Planned.plan_idle {reason : Reason} (early : Planner.idle? board s = some reason) :
    round.plan = .empty s.bankroll reason := by
  obtain ⟨seen, strategy, course⟩ := round
  subst same
  cases planned with
  | idle other found =>
    rw [early] at found
    cases found
    rfl
  | hopeless due nobody => rw [early] at due; cases due
  | full t due _ _ => rw [early] at due; cases due

theorem Course.Planned.plan_hopeless (due : Planner.idle? board s = none)
    (nobody : Screen.screened board s = []) : round.plan = .empty s.bankroll .noPositiveValue := by
  obtain ⟨seen, strategy, course⟩ := round
  subst same
  cases planned with
  | idle reason early => rw [due] at early; cases early
  | hopeless _ _ => rfl
  | full t _ somebody _ => exact absurd nobody somebody

theorem Course.Planned.plan_full (due : Planner.idle? board s = none)
    (somebody : Screen.screened board s ≠ []) :
    ∃ t : Trace, t.Sound board s ∧ round.plan = t.plan s.bankroll := by
  obtain ⟨seen, strategy, course⟩ := round
  subst same
  cases planned with
  | idle reason early =>
    rw [due] at early
    cases early
  | hopeless _ nobody => exact absurd nobody somebody
  | full t _ _ sound => exact ⟨t, sound, rfl⟩

end Course

theorem planObserved?_feasible {room : Nat} {o : Observation} {d : Draft} (seen : o.check? room = .ok board)
    (drafted : d.check? room = .ok s) :
    ∃ round candidates, planObserved? room o d = .ok round ∧ Screen.kept? board s = .ok candidates ∧
      (round.plan.bets.map Bet.option).Pairwise (· < ·) ∧
      (∀ bet ∈ round.plan.bets, 0 ≤ bet.option ∧ bet.option ≤ 24 ∧ bet.option ∈ candidates ∧
        s.tick ∣ bet.stake ∧ s.minBet ≤ bet.stake ∧ bet.stake ≤ s.cap) ∧
      round.plan.total ≤ s.bankroll := by
  have strategy := (Draft.check?_eq_ok_iff.1 drafted).2
  have valid := (Observation.check?_eq_ok_iff.1 seen).2
  obtain ⟨round, run, -, same, planned⟩ := planObserved?_planned seen drafted
  refine ⟨round, _, run, Screen.kept?_ok valid strategy.unitValue_nonneg, ?_⟩
  rcases planned.plan_cases same with ⟨reason, empty⟩ | ⟨t, sound, full⟩
  · rw [empty]
    refine ⟨List.Pairwise.nil, ?_, strategy.bankroll_nonneg⟩
    intro bet member
    cases member
  · have bets : (t.plan s.bankroll).bets = t.snapped.stakes.map fun p => ⟨p.1, p.2⟩ := sound.bets
    rw [full, sound.plan_total, bets, List.map_map]
    refine ⟨sound.kept.ascending sound.drafted_placed, ?_, sound.total_le strategy⟩
    intro bet member
    obtain ⟨p, entry, rfl⟩ := List.mem_map.1 member
    have named := Stakes.numbers_of_mem entry
    obtain ⟨low, high⟩ := (mem_options p.1).1 (sound.snapped_placed.known p.1 named)
    have last : p.1 ≤ 24 := Int.le_of_lt_add_one high
    exact ⟨low, last, sound.screened named, sound.kept.bounds strategy entry⟩

-- An option that nobody staked next to others that were staked more and more.
def slanted : Board :=
  ⟨(List.range 25).map fun k => 40 * k, List.replicate 25 0, 1090, 0, true, 9⟩

-- One halving, and a bankroll that binds.
theorem planObserved?_feasible_binding :
    ∃ round candidates,
      planObserved? 0 slanted.observed (Strategy.drafted ⟨70, 20, 4, 2, 80000000000, 2, 1, 3⟩) =
        .ok round ∧
      Screen.kept? slanted ⟨70, 20, 4, 2, 80000000000, 2, 1, 3⟩ = .ok candidates ∧
      (∀ bet ∈ round.plan.bets, bet.option ∈ candidates ∧ 2 ∣ bet.stake) ∧
      round.plan.total ≤ 70 := by
  have board : slanted.Valid := by decide
  have strategy : Strategy.Valid ⟨70, 20, 4, 2, 80000000000, 2, 1, 3⟩ := by decide
  obtain ⟨round, candidates, run, kept, -, sizes, total⟩ :=
    planObserved?_feasible board.check?_observed strategy.check?_drafted
  refine ⟨round, candidates, run, kept, ?_, total⟩
  intro bet member
  obtain ⟨-, -, candidate, ticks, -⟩ := sizes bet member
  exact ⟨candidate, ticks⟩

theorem length_le_sumOf {row : List Int} (positive : ∀ x ∈ row, 0 < x) : row.length ≤ sumOf row := by
  induction row with
  | nil => exact Int.le_refl 0
  | cons x rest ih =>
    have first := positive x List.mem_cons_self
    have others := ih fun y member => positive y (List.mem_cons_of_mem x member)
    rw [List.length_cons, sumOf]
    omega

theorem Trace.plan_reason (t : Trace) (bankroll : Int) :
    (t.plan bankroll).reason = [] ↔ (t.plan bankroll).bets ≠ [] := by
  have word := Plan.empty_reason bankroll .nothingLeft
  unfold Trace.plan
  by_cases nothing : t.bets = []
  · simp only [nothing, if_true, ne_eq, not_true_eq_false, iff_false]
    exact word
  · simp only [nothing, if_false, ne_eq, not_false_eq_true]

def Trace.value (t : Trace) (bet : Bet) : Int := (t.snapped.model.quoteAt bet.option).value bet.stake

namespace Trace.Sound

variable {t : Trace}

theorem priced (sound : t.Sound board s) (valid : board.Valid) (unitValue : 0 ≤ s.unitValue) :
    (Model.bare board s).withStakes? t.snapped.stakes = .ok t.snapped.model := by
  rw [sound.kept.model]
  exact (Model.bare_sound valid unitValue).withStakes? sound.snapped_placed

theorem value? (sound : t.Sound board s) (valid : board.Valid) (unitValue : 0 ≤ s.unitValue) {bet : Bet}
    (member : bet ∈ t.bets) :
    t.snapped.model.value? bet.option bet.stake = .ok (t.value bet) ∧ 0 < t.value bet := by
  rw [sound.bets] at member
  obtain ⟨p, entry, rfl⟩ := List.mem_map.1 member
  have known := sound.snapped_placed.known p.1 (Stakes.numbers_of_mem entry)
  have pays := sound.kept.pays p entry
  unfold Trace.value
  rw [sound.kept.model]
  exact ⟨((Model.bare_sound valid unitValue).against t.snapped.stakes).value? known p.2, pays⟩

theorem expected_eq (sound : t.Sound board s) : t.expected = sumOf (t.bets.map t.value) := by
  rw [sound.bets, List.map_map]
  exact sound.expected

end Trace.Sound

theorem planObserved?_pays {room : Nat} {o : Observation} {d : Draft} (seen : o.check? room = .ok board)
    (drafted : d.check? room = .ok s) :
    ∃ (round : Round) (bare m : Model) (value : Bet → Int), planObserved? room o d = .ok round ∧
      Model.bare? board s = .ok bare ∧ bare.withStakes? round.plan.stakes = .ok m ∧
      (∀ bet ∈ round.plan.bets, m.value? bet.option bet.stake = .ok (value bet) ∧ 0 < value bet) ∧
      round.plan.expected = sumOf (round.plan.bets.map value) ∧
      round.plan.bets.length ≤ round.plan.expected ∧
      (round.plan.reason = [] ↔ round.plan.bets ≠ []) ∧
      (round.plan.bets = [] → round.plan.expected = 0) := by
  have strategy := (Draft.check?_eq_ok_iff.1 drafted).2
  have valid := (Observation.check?_eq_ok_iff.1 seen).2
  have unitValue := strategy.unitValue_nonneg
  have bare := Model.bare?_ok s valid
  obtain ⟨round, run, -, same, planned⟩ := planObserved?_planned seen drafted
  rcases planned.plan_cases same with ⟨reason, empty⟩ | ⟨t, sound, full⟩
  · have word := Plan.empty_reason s.bankroll reason
    refine ⟨round, _, (Model.bare board s).against [], fun _ => 0, run, bare, ?_⟩
    rw [empty]
    refine ⟨(Model.bare_sound valid unitValue).withStakes? Stakes.Placed.nil, ?_, rfl,
      Int.le_refl 0, iff_of_false word fun some => some rfl, fun _ => rfl⟩
    intro bet member
    cases member
  · have expected := sound.expected_eq
    refine ⟨round, _, t.snapped.model, t.value, run, bare, ?_⟩
    rw [full, sound.plan_stakes]
    refine ⟨sound.priced valid unitValue, fun bet member => sound.value? valid unitValue member,
      expected, ?_, t.plan_reason s.bankroll, ?_⟩
    · have each : ∀ v ∈ t.bets.map t.value, 0 < v := by
        intro v member
        obtain ⟨bet, entry, rfl⟩ := List.mem_map.1 member
        exact (sound.value? valid unitValue entry).2
      have count := length_le_sumOf each
      rw [List.length_map, ← expected] at count
      exact count
    · intro nothing
      have empty : t.bets = [] := nothing
      rw [empty] at expected
      exact expected

-- Nobody else on the board, so that only the reward can pay.
theorem planObserved?_pays_unstaked :
    ∃ (round : Round) (bare m : Model) (value : Bet → Int),
      planObserved? 0 (Board.observed ⟨List.replicate 25 0, List.replicate 25 0, 0, 2, true, 900⟩)
        (Strategy.drafted ⟨70, 20, 4, 2, 80000000000, 2, 60, 1⟩) = .ok round ∧
      bare.withStakes? round.plan.stakes = .ok m ∧
      (∀ bet ∈ round.plan.bets, m.value? bet.option bet.stake = .ok (value bet) ∧ 0 < value bet) ∧
      round.plan.expected = sumOf (round.plan.bets.map value) := by
  have board : Board.Valid ⟨List.replicate 25 0, List.replicate 25 0, 0, 2, true, 900⟩ := by decide
  have strategy : Strategy.Valid ⟨70, 20, 4, 2, 80000000000, 2, 60, 1⟩ := by decide
  obtain ⟨round, bare, m, value, run, -, against, pays, sum, -⟩ :=
    planObserved?_pays board.check?_observed strategy.check?_drafted
  exact ⟨round, bare, m, value, run, against, pays, sum⟩

end Parimutuel
