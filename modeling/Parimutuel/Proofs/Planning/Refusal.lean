import Parimutuel.Proofs.Decision
import Parimutuel.Proofs.Planning.Course

namespace Parimutuel

structure Observation.WellFormed (o : Observation) : Prop where
  stakes_length : o.stakes.length = 25
  bettors_length : o.bettors.length = 25
  stakes : ∀ value ∈ o.stakes, value.IntFrom 0
  bettors : ∀ value ∈ o.bettors, value.IntFrom 0
  skim : ∃ n, o.skim = .int n ∧ 0 ≤ n ∧ n ≤ 10000
  remaining : o.remaining.IntFrom 0
  reward : o.reward.IntFrom 0
  isOpen : ∃ b, o.isOpen = .bool b

structure Draft.WellFormed (d : Draft) : Prop where
  bankroll : d.bankroll.IntFrom 0
  unitValue : d.unitValue.IntFrom 0
  threshold : d.threshold.IntFrom 0
  passes : d.passes.IntFrom 0
  iterations : d.iterations.IntFrom 1
  sizes : ∃ tick minBet cap, d.tick = .int tick ∧ d.minBet = .int minBet ∧ d.cap = .int cap ∧
    1 ≤ tick ∧ 1 ≤ minBet ∧ 1 ≤ cap ∧ tick ∣ minBet ∧ tick ∣ cap ∧ minBet ≤ cap

theorem Json.intFrom_row {least : Int} {row : List Json} (each : ∀ value ∈ row, value.IntFrom least) :
    ∃ ns : List Int, row = ns.map .int ∧ ∀ n ∈ ns, least ≤ n := by
  induction row with
  | nil => exact ⟨[], rfl, fun n member => by cases member⟩
  | cons value rest ih =>
    obtain ⟨n, rfl, bound⟩ := each value List.mem_cons_self
    obtain ⟨ns, rfl, bounds⟩ := ih fun other member => each other (List.mem_cons_of_mem _ member)
    exact ⟨n :: ns, rfl, List.forall_mem_cons.2 ⟨bound, bounds⟩⟩

theorem Json.row_intFrom {least : Int} {ns : List Int} (bounds : ∀ n ∈ ns, least ≤ n) :
    ∀ value ∈ ns.map Json.int, value.IntFrom least := by
  intro value member
  obtain ⟨n, inside, rfl⟩ := List.mem_map.1 member
  exact ⟨n, rfl, bounds n inside⟩

theorem Board.Valid.wellFormed {b : Board} (valid : b.Valid) : b.observed.WellFormed where
  stakes_length := (List.length_map _).trans valid.stakes_length
  bettors_length := (List.length_map _).trans valid.bettors_length
  stakes := Json.row_intFrom valid.stakes_nonneg
  bettors := Json.row_intFrom valid.bettors_nonneg
  skim := ⟨b.skim, rfl, valid.skim_nonneg, valid.skim_le⟩
  remaining := ⟨b.remaining, rfl, valid.remaining_nonneg⟩
  reward := ⟨b.reward, rfl, valid.reward_nonneg⟩
  isOpen := ⟨b.isOpen, rfl⟩

theorem Strategy.Valid.wellFormed {s : Strategy} (valid : s.Valid) : s.drafted.WellFormed where
  bankroll := ⟨s.bankroll, rfl, valid.bankroll_nonneg⟩
  unitValue := ⟨s.unitValue, rfl, valid.unitValue_nonneg⟩
  threshold := ⟨s.threshold, rfl, valid.threshold_nonneg⟩
  passes := ⟨s.passes, rfl, valid.passes_nonneg⟩
  iterations := ⟨s.iterations, rfl, valid.iterations_pos⟩
  sizes := ⟨s.tick, s.minBet, s.cap, rfl, rfl, rfl, valid.tick_pos, valid.minBet_pos, valid.cap_pos,
    valid.minBet_tick, valid.cap_tick, valid.minBet_le⟩

theorem Observation.wellFormed_iff {o : Observation} :
    o.WellFormed ↔ ∃ b : Board, o = b.observed ∧ b.Valid := by
  constructor
  · rintro ⟨stakesLength, bettorsLength, stakes, bettors, ⟨skim, skimSame, low, high⟩,
      ⟨remaining, remainingSame, left⟩, ⟨reward, rewardSame, paid⟩, ⟨isOpen, openSame⟩⟩
    obtain ⟨amounts, amountsSame, amountsNonneg⟩ := Json.intFrom_row stakes
    obtain ⟨counts, countsSame, countsNonneg⟩ := Json.intFrom_row bettors
    rw [amountsSame, List.length_map] at stakesLength
    rw [countsSame, List.length_map] at bettorsLength
    refine ⟨⟨amounts, counts, skim, remaining, isOpen, reward⟩, ?_, stakesLength, bettorsLength,
      amountsNonneg, countsNonneg, low, high, left, paid⟩
    cases o
    simp only at amountsSame countsSame skimSame remainingSame rewardSame openSame
    rw [Board.observed, amountsSame, countsSame, skimSame, remainingSame, rewardSame, openSame]
  · rintro ⟨b, rfl, valid⟩
    exact valid.wellFormed

theorem Draft.wellFormed_iff {d : Draft} :
    d.WellFormed ↔ ∃ s : Strategy, d = s.drafted ∧ s.Valid := by
  constructor
  · rintro ⟨⟨bankroll, bankrollSame, money⟩, ⟨unitValue, unitSame, worth⟩,
      ⟨threshold, thresholdSame, wait⟩, ⟨passes, passesSame, more⟩, ⟨iterations, iterationsSame, some⟩,
      ⟨tick, minBet, cap, tickSame, minBetSame, capSame, tickPos, minBetPos, capPos, minBetTick, capTick,
        order⟩⟩
    refine ⟨⟨bankroll, cap, minBet, tick, unitValue, threshold, iterations, passes⟩, ?_, money, worth,
      wait, more, tickPos, minBetPos, capPos, some, minBetTick, capTick, order⟩
    cases d
    simp only at bankrollSame unitSame thresholdSame passesSame iterationsSame tickSame minBetSame capSame
    rw [Strategy.drafted, bankrollSame, unitSame, thresholdSame, passesSame, iterationsSame, tickSame,
      minBetSame, capSame]
  · rintro ⟨s, rfl, valid⟩
    exact valid.wellFormed

variable {o : Observation} {d : Draft}

theorem planObserved?_ok (room : Nat) (seen : o.WellFormed) (drafted : d.WellFormed) :
    ∃ round, planObserved? room o d = .ok round ∧ round.board.observed = o ∧ round.strategy.drafted = d := by
  obtain ⟨b, rfl, valid⟩ := Observation.wellFormed_iff.1 seen
  obtain ⟨s, rfl, strategy⟩ := Draft.wellFormed_iff.1 drafted
  obtain ⟨round, run, board, same, -⟩ :=
    planObserved?_planned valid.check?_observed strategy.check?_drafted
  exact ⟨round, run, congrArg Board.observed board, congrArg Strategy.drafted same⟩

theorem wellFormed_of_planned {room : Nat} {round : Round} (run : planObserved? room o d = .ok round) :
    o.WellFormed ∧ d.WellFormed := by
  obtain ⟨b, seen, run⟩ := bind_ok run
  obtain ⟨s, drafted, -⟩ := bind_ok run
  exact ⟨Observation.wellFormed_iff.2 ⟨b, Observation.check?_eq_ok_iff.1 seen⟩,
    Draft.wellFormed_iff.2 ⟨s, Draft.check?_eq_ok_iff.1 drafted⟩⟩

def Observation.values (o : Observation) : List Json :=
  o.stakes ++ o.bettors ++ [o.skim, o.remaining, o.isOpen, o.reward]

def Draft.values (d : Draft) : List Json :=
  [d.bankroll, d.cap, d.minBet, d.tick, d.unitValue, d.threshold, d.iterations, d.passes]

-- The arithmetic never fails on what the two checks let through, so that nothing else decides.
theorem planObserved?_decides (o : Observation) (d : Draft) :
    Decides (· ∈ o.values ++ d.values) fun room => planObserved? room o d := by
  have observed : ∀ v ∈ o.values, v ∈ o.values ++ d.values := fun v member => List.mem_append_left _ member
  have drafted : ∀ v ∈ d.values, v ∈ o.values ++ d.values := fun v member => List.mem_append_right _ member
  refine (Observation.check?_decides (fun v member _ => observed v ?_) (observed _ ?_) (observed _ ?_)).bind
    fun b seen => (Draft.check?_decides (fun v member _ => drafted v ?_) fun v member => drafted v ?_).bind
    fun s read => ?_
  · simp only [Observation.values, List.mem_append, List.mem_cons] at member ⊢
    tauto
  · simp [Observation.values]
  · simp [Observation.values]
  · simp only [Draft.values, List.mem_cons] at member ⊢
    tauto
  · simp only [Draft.values, List.mem_cons] at member ⊢
    tauto
  · have valid := (Observation.check?_eq_ok_iff.1 (seen 0)).2
    have strategy := (Draft.check?_eq_ok_iff.1 (read 0)).2
    obtain ⟨c, run, -⟩ := Planner.course?_planned valid strategy
    refine .passes ⟨b, s, c⟩ fun room => ?_
    simp only [Planner.round?, run, mapError_ok, bind, Except.bind, pure, Except.pure]

-- A planning is refused for the values it was given and for nothing else. What refuses it is told unless
-- the values that it shows are too long or too deep to be put into words.
theorem planObserved?_refused (o : Observation) (d : Draft) :
    (∀ room, (∃ round, planObserved? room o d = .ok round ∧ round.board.observed = o ∧
      round.strategy.drafted = d) ↔ o.WellFormed ∧ d.WellFormed) ∧
    (¬ (o.WellFormed ∧ d.WellFormed) → ∃ refusal : Refusal,
      (∀ v ∈ refusal.quoted, v ∈ o.values ++ d.values) ∧
      ∀ room, planObserved? room o d = .error (refusal.raised room)) ∧
    (∀ room, (∀ v ∈ o.values ++ d.values, v.Modest room) →
      ((∃ message, planObserved? room o d = .error (.refused message)) ↔ ¬ (o.WellFormed ∧ d.WellFormed))) ∧
    ∀ room failure, planObserved? room o d = .error failure →
      (∃ message, failure = .refused message) ∨ ∃ why, failure = .unsayable why := by
  have decides := planObserved?_decides o d
  refine ⟨fun room => ⟨?_, ?_⟩, ?_, fun room modest => ⟨?_, ?_⟩, ?_⟩
  · rintro ⟨round, run, -⟩
    exact wellFormed_of_planned run
  · rintro ⟨seen, drafted⟩
    exact planObserved?_ok room seen drafted
  · intro malformed
    cases decides with
    | passes round run => exact absurd (wellFormed_of_planned (run 0)) malformed
    | refuses refusal shows run => exact ⟨refusal, shows, run⟩
  · rintro ⟨message, failed⟩ ⟨seen, drafted⟩
    obtain ⟨round, run, -⟩ := planObserved?_ok room seen drafted
    cases failed.symm.trans run
  · intro malformed
    rcases (decides.mono modest).said with ⟨round, run⟩ | refused
    · exact absurd (wellFormed_of_planned run) malformed
    · exact refused
  · intro room failure failed
    cases decides with
    | passes round run => cases failed.symm.trans (run room)
    | refuses refusal shows run =>
      rw [run] at failed
      cases failed
      exact refusal.raised_spoken room

-- Of a debt of more digits than are ever written out there is no refusal to be told.
theorem planObserved?_indebted {b : Board} (valid : b.Valid) (d : Draft) {debt : Nat}
    (long : Nat.pow 10 Text.digitLimit ≤ debt) (room : Nat) :
    planObserved? room b.observed { d with bankroll := .int (-debt) } = .error (.unsayable .tooLong) := by
  have first : 0 < Nat.pow 10 0 := by decide
  have positive : 0 < debt := Nat.lt_of_lt_of_le (Text.lt_pow_of_le first (Nat.zero_le _)) long
  have negative : -(debt : Int) < 0 := Int.neg_neg_of_pos (Int.natCast_pos.2 positive)
  have size : debt = (-(debt : Int)).natAbs := by rw [Int.natAbs_neg, Int.natAbs_natCast]
  have untold : Json.decimal? (-debt) = .error .tooLong := if_pos (Nat.le_trans long (Nat.le_of_eq size))
  have raised : (Refusal.negative "bankroll" (-debt)).raised room = .unsayable .tooLong := by
    rw [Refusal.raised, Refusal.message?, untold]
    rfl
  have failed : natural? room "bankroll" (.int (-debt)) = .error (.unsayable .tooLong) := by
    rw [natural?, if_pos negative, raised]
  rw [planObserved?, planBy?, valid.check?_observed, Draft.check?, failed]
  rfl

theorem planObserved?_unsayable :
    planObserved? 100 (⟨List.replicate 25 0, List.replicate 25 0, 1090, 0, true, 0⟩ : Board).observed
      { bankroll := .int (-(Nat.pow 10 Text.digitLimit : Nat)), cap := .int 1, minBet := .int 1 } =
        .error (.unsayable .tooLong) :=
  planObserved?_indebted (by decide) { bankroll := .int 0, cap := .int 1, minBet := .int 1 }
    (Nat.le_refl _) 100

end Parimutuel
