import Parimutuel.Desk
import Parimutuel.Proofs.Acceptance
import Parimutuel.Proofs.Planning.Stages
import Parimutuel.Proofs.Snap.Kept

namespace Parimutuel

structure Trace.Sound (board : Board) (s : Strategy) (t : Trace) : Prop where
  candidates : t.candidates = Screen.screened board s
  funded : t.funded = Planner.fundFlat (Model.bare board s) t.candidates s
  budget : t.budget = s.bankroll - t.funded.total
  chosen : t.chosen = (Planner.searched (Model.bare board s) t.candidates s t.funded).1
  kept : Snap.Kept (Model.bare board s)
    (Snap.trimmed s (Stakes.sorted (t.chosen.stakes ++ t.funded))) t.snapped
  bets : t.bets = t.snapped.stakes.map fun p => ⟨p.1, p.2⟩
  expected : t.expected =
    sumOf (t.snapped.stakes.map fun p => (t.snapped.model.quoteAt p.1).value p.2)

inductive Course.Planned (board : Board) (s : Strategy) : Course → Prop where
  | idle (reason : Reason) (early : Planner.idle? board s = some reason) : Planned board s (.idle reason)
  | hopeless (due : Planner.idle? board s = none) (nobody : Screen.screened board s = []) :
      Planned board s .hopeless
  | full (t : Trace) (due : Planner.idle? board s = none) (somebody : Screen.screened board s ≠ [])
      (sound : t.Sound board s) : Planned board s (.full t)

variable {board : Board} {s : Strategy} {t : Trace}

theorem Screen.screened_known (board : Board) (s : Strategy) : ∀ i ∈ screened board s, i ∈ options :=
  fun _ member => (screened_sublist board s).subset member

theorem Screen.screened_distinct (board : Board) (s : Strategy) : (screened board s).Nodup :=
  options_nodup.sublist (screened_sublist board s)

namespace Trace.Sound

theorem found (sound : t.Sound board s) :
    ∃ held, t.chosen =
      Planner.search (Model.bare board s) t.candidates (Planner.terms s t.budget) held := by
  rw [sound.chosen, sound.budget]
  exact Planner.searched_search _ _ _ _

theorem funded_placed (sound : t.Sound board s) : t.funded.Placed := by
  rw [sound.funded, sound.candidates]
  exact Planner.fundFlat_placed (Screen.screened_distinct board s) (Screen.screened_known board s) s

theorem chosen_placed (sound : t.Sound board s) : t.chosen.stakes.Placed := by
  rw [sound.chosen, sound.candidates]
  exact Planner.searched_placed (Screen.screened_known board s)

theorem chosen_staked (sound : t.Sound board s) :
    ∀ i ∈ t.chosen.stakes.numbers, i ∈ Planner.staked (Model.bare board s) t.candidates := by
  rw [sound.chosen]
  exact Planner.searched_numbers

theorem funded_flat (sound : t.Sound board s) :
    ∀ i ∈ t.funded.numbers, i ∈ Planner.flat (Model.bare board s) t.candidates := by
  rw [sound.funded]
  exact Planner.fundFlat_numbers _ _ _

theorem apart (sound : t.Sound board s) : ∀ i ∈ t.chosen.stakes.numbers, i ∉ t.funded.numbers :=
  fun i first second => Planner.flat_apart (sound.funded_flat i second) (sound.chosen_staked i first)

theorem drafted_placed (sound : t.Sound board s) : Stakes.Placed (t.chosen.stakes ++ t.funded) :=
  sound.chosen_placed.append sound.funded_placed sound.apart

theorem snapped_placed (sound : t.Sound board s) : t.snapped.stakes.Placed :=
  sound.kept.placed sound.drafted_placed

theorem screened (sound : t.Sound board s) {i : Int} (member : i ∈ t.snapped.stakes.numbers) :
    i ∈ Screen.screened board s := by
  have named := sound.kept.numbers member
  rw [Stakes.numbers_append] at named
  rw [← sound.candidates]
  rcases List.mem_append.1 named with first | second
  · exact List.mem_of_mem_filter (sound.chosen_staked i first)
  · exact List.mem_of_mem_filter (sound.funded_flat i second)

theorem funded_total_le (sound : t.Sound board s) (valid : s.Valid) : t.funded.total ≤ s.bankroll := by
  rw [sound.funded]
  exact Planner.fund_total_le valid.bankroll_nonneg _

theorem funded_amount (sound : t.Sound board s) {p : Int × Int} (member : p ∈ t.funded) :
    p.2 = s.minBet := by
  rw [sound.funded] at member
  exact Planner.fund_amount member

-- A bet is one of those ahead of the search, or what trimming leaves of what the search found.
theorem snapped_origin (sound : t.Sound board s) (valid : s.Valid) {p : Int × Int}
    (member : p ∈ t.snapped.stakes) :
    p ∈ t.funded ∨ ∃ q ∈ t.chosen.stakes, q.1 = p.1 ∧ s.minBet ≤ q.2 ∧ p.2 ≤ q.2 := by
  obtain ⟨q, entry, large, rfl⟩ := Snap.mem_trimmed.1 (sound.kept.inside.subset member)
  rcases List.mem_append.1 ((Stakes.sorted_perm _).mem_iff.1 entry) with first | second
  · have down := Snap.onTick_le valid.tick_pos q.2
    exact .inr ⟨q, first, rfl, Int.le_trans large down, Int.le_trans (Int.min_le_left _ _) down⟩
  · have amount := sound.funded_amount second
    rw [amount, Snap.cut_minBet valid, ← amount]
    exact .inl second

theorem chosen_total_le (sound : t.Sound board s) (valid : s.Valid) :
    t.chosen.stakes.total ≤ max 0 t.budget := by
  have cap : 0 ≤ (Planner.terms s t.budget).cap := Int.le_of_lt valid.cap_pos
  obtain ⟨held, same⟩ := sound.found
  rw [same, Planner.search, ShadowPrice.solution_total _ _ cap]
  exact ShadowPrice.solution_aggregate_le _ _ _

theorem chosen_positive (sound : t.Sound board s) : ∀ p ∈ t.chosen.stakes, 0 < p.2 := by
  obtain ⟨held, same⟩ := sound.found
  rw [same]
  exact fun p member => (ShadowPrice.solution_mem member).2.1

theorem snapped_unstaked (sound : t.Sound board s) (strategy : s.Valid) {p : Int × Int}
    (member : p ∈ t.snapped.stakes) (unstaked : Model.takenAt board p.1 = 0) : p ∈ t.funded := by
  rcases sound.snapped_origin strategy member with held | ⟨q, found, same, _, _⟩
  · exact held
  · have searched := Planner.mem_staked.1 (sound.chosen_staked q.1 (Stakes.numbers_of_mem found))
    exact absurd (same ▸ unstaked) searched.2

theorem snapped_funded (sound : t.Sound board s) (strategy : s.Valid) (short : t.budget < s.minBet) :
    t.snapped.stakes ⊆ t.funded := by
  intro p member
  rcases sound.snapped_origin strategy member with held | ⟨q, found, _, large, _⟩
  · exact held
  · have part := Stakes.le_total (fun r inside => Int.le_of_lt (sound.chosen_positive r inside)) found
    have whole := sound.chosen_total_le strategy
    have least := strategy.minBet_pos
    omega

-- What the smallest bets leave of the bankroll bounds what the search hands out.
theorem total_le (sound : t.Sound board s) (valid : s.Valid) : t.snapped.stakes.total ≤ s.bankroll := by
  have searched := sound.chosen_total_le valid
  have left := sound.funded_total_le valid
  have budget := sound.budget
  have nonneg : ∀ p ∈ t.chosen.stakes ++ t.funded, 0 ≤ p.2 := by
    intro p member
    rcases List.mem_append.1 member with first | second
    · exact Int.le_of_lt (sound.chosen_positive p first)
    · rw [sound.funded_amount second]
      exact Int.le_of_lt valid.minBet_pos
  have kept := sound.kept.total_le valid nonneg
  rw [Stakes.total_append] at kept
  omega

theorem plan_stakes (sound : t.Sound board s) (bankroll : Int) :
    (t.plan bankroll).stakes = t.snapped.stakes := by
  have pairs : t.bets.map (fun b => (b.option, b.stake)) = t.snapped.stakes := by
    rw [sound.bets, List.map_map]
    exact List.map_id _
  rw [Plan.stakes, Trace.plan, pairs]
  exact Stakes.ofPairs_distinct sound.snapped_placed.distinct

theorem plan_total (sound : t.Sound board s) (bankroll : Int) :
    (t.plan bankroll).total = t.snapped.stakes.total := by
  rw [Plan.total, Trace.plan, sound.bets, List.map_map]
  rfl

end Trace.Sound

namespace Planner

theorem betsOf_snapped {stakes : Stakes} (ascending : stakes.numbers.Pairwise (· < ·))
    (positive : ∀ p ∈ stakes, 0 < p.2) : betsOf stakes = stakes.map fun p => ⟨p.1, p.2⟩ := by
  have all : stakes.filter (fun p => 0 < p.2) = stakes :=
    List.filter_eq_self.2 fun p member => decide_eq_true (positive p member)
  rw [betsOf, Stakes.sorted_of_numbers ascending, all]

theorem expected?_snapped {m : Model} (sound : m.Sound) {stakes : Stakes} (placed : stakes.Placed) :
    expected? m (stakes.map fun p => ⟨p.1, p.2⟩) =
      .ok (sumOf (stakes.map fun p => (m.quoteAt p.1).value p.2)) := by
  have values := mapM_ok (f := fun b : Bet => m.value? b.option b.stake)
    (g := fun b => (m.quoteAt b.option).value b.stake) (stakes.map fun p => ⟨p.1, p.2⟩)
    fun b member => by
      obtain ⟨p, entry, rfl⟩ := List.mem_map.1 member
      exact sound.value? (placed.known p.1 (Stakes.numbers_of_mem entry)) p.2
  simp only [expected?, values, List.map_map, bind, Except.bind, pure, Except.pure]
  rfl

theorem snap?_bets {base : Model} (sound : base.Sound) (valid : s.Valid) {drafted : Stakes}
    (placed : drafted.Placed) :
    ∃ r, Snap.snap? base drafted s = .ok r ∧ Snap.Kept base (Snap.trimmed s drafted.sorted) r ∧
      betsOf r.stakes = r.stakes.map (fun p => ⟨p.1, p.2⟩) ∧
      expected? r.model (betsOf r.stakes) =
        .ok (sumOf (r.stakes.map fun p => (r.model.quoteAt p.1).value p.2)) := by
  obtain ⟨r, run, kept⟩ := Snap.snap?_kept sound valid.tick_pos placed
  have bets := betsOf_snapped (kept.ascending placed) (kept.positive valid)
  have priced : r.model.Sound := kept.model ▸ sound.against r.stakes
  exact ⟨r, run, kept, bets, bets ▸ expected?_snapped priced (kept.placed placed)⟩

theorem trace?_sound (valid : board.Valid) (strategy : s.Valid) :
    ∃ t, trace? refine? board s (Screen.screened board s) = .ok t ∧ t.Sound board s := by
  have base := Model.bare_sound (s := s) valid strategy.unitValue_nonneg
  have known := Screen.screened_known board s
  have distinct := Screen.screened_distinct board s
  have funding := fundFlat?_ok base known s
  have staking := staked?_ok base known
  obtain ⟨funded, fund⟩ :
      ∃ funded, funded = fundFlat (Model.bare board s) (Screen.screened board s) s :=
    ⟨_, rfl⟩
  obtain ⟨budget, rest⟩ : ∃ budget, budget = s.bankroll - funded.total := ⟨_, rfl⟩
  have searching := searched?_ok base distinct known fund rest
  obtain ⟨first, found, refining⟩ := bind_ok searching
  obtain ⟨chosen, last⟩ :
      ∃ chosen, chosen = (searched (Model.bare board s) (Screen.screened board s) s funded).1 :=
    ⟨_, rfl⟩
  have left : chosen.stakes.Placed := last ▸ searched_placed known
  have right : funded.Placed := fund ▸ fundFlat_placed distinct known s
  have apart : ∀ i ∈ chosen.stakes.numbers, i ∉ funded.numbers := last ▸ fund ▸ searched_apart
  obtain ⟨snapped, snap, kept, bets, expected⟩ := snap?_bets base strategy (left.append right apart)
  rw [← left.merge right apart] at snap
  simp only [bind, Except.bind, pure, Except.pure] at staking
  unfold trace?
  rw [Model.bare?_ok s valid]
  simp only [funding, staking, ← fund, ← rest, found, refining, ← last, snap, expected, bind,
    Except.bind, pure, Except.pure]
  exact ⟨_, rfl, rfl, fund, rest, last, kept, bets, rfl⟩

theorem course?_planned (valid : board.Valid) (strategy : s.Valid) :
    ∃ c, course? refine? board s = .ok c ∧ Course.Planned board s c := by
  unfold course?
  cases due : idle? board s with
  | some reason => exact ⟨_, rfl, .idle reason due⟩
  | none =>
    simp only [Screen.kept?_ok valid strategy.unitValue_nonneg, bind, Except.bind, pure, Except.pure]
    by_cases nobody : Screen.screened board s = []
    · rw [if_pos nobody]
      exact ⟨_, rfl, .hopeless due nobody⟩
    · obtain ⟨t, run, sound⟩ := trace?_sound valid strategy
      rw [if_neg nobody, run]
      exact ⟨_, rfl, .full t due nobody sound⟩

end Planner

theorem planObserved?_planned {room : Nat} {o : Observation} {d : Draft} (seen : o.check? room = .ok board)
    (drafted : d.check? room = .ok s) :
    ∃ round, planObserved? room o d = .ok round ∧ round.board = board ∧ round.strategy = s ∧
      Course.Planned board s round.course := by
  have valid := (Observation.check?_eq_ok_iff.1 seen).2
  have strategy := (Draft.check?_eq_ok_iff.1 drafted).2
  obtain ⟨c, run, planned⟩ := Planner.course?_planned valid strategy
  refine ⟨⟨board, s, c⟩, ?_, rfl, rfl, planned⟩
  rw [planObserved?, planBy?, seen, drafted]
  simp only [Planner.round?, run, mapError_ok, bind, Except.bind, pure, Except.pure]

end Parimutuel
