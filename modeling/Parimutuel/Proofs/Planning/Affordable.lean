import Parimutuel.Proofs.Fee
import Parimutuel.Proofs.Planning.Gain
import Parimutuel.Settings

namespace Parimutuel

variable {board : Board} {s : Strategy}

theorem Course.Planned.total_bounds {round : Round} (same : round.strategy = s)
    (planned : Course.Planned board s round.course) (strategy : s.Valid) (bets : round.plan.bets ≠ []) :
    0 < round.plan.total ∧ round.plan.total ≤ s.bankroll := by
  rcases planned.plan_cases same with ⟨reason, empty⟩ | ⟨t, sound, full⟩
  · rw [empty] at bets
    exact absurd rfl bets
  · have positive := sound.kept.positive strategy
    have staked : t.snapped.stakes ≠ [] := by
      intro nothing
      have none : t.bets = [] := by rw [sound.bets, nothing, List.map_nil]
      rw [full] at bets
      exact bets none
    obtain ⟨p, rest, more⟩ := List.exists_cons_of_ne_nil staked
    have member : p ∈ t.snapped.stakes := more ▸ List.mem_cons_self
    have some := positive p member
    have least := Stakes.le_total (fun q inside => Int.le_of_lt (positive q inside)) member
    rw [full, sound.plan_total]
    exact ⟨by omega, sound.total_le strategy⟩

theorem Settings.strategy?_net {settings : Settings} {gross : Int} (balance : settings.gross = some gross)
    (rate : 0 < bpsScale + settings.fees.bps) :
    ∃ s, settings.strategy? = .ok s ∧ settings.fees.net? gross = .ok s.bankroll := by
  obtain ⟨total, net, -⟩ := Fee.Schedule.net?_fits rate gross
  have bankroll : settings.bankroll? = .ok total := by
    rw [Settings.bankroll?, balance]
    exact net
  rw [Settings.strategy?, bankroll]
  exact ⟨_, rfl, net⟩

theorem Settings.strategy?_affordable {settings : Settings} {gross : Int}
    (balance : settings.gross = some gross) (rate : -10000 < settings.fees.bps) :
    ∃ s, settings.strategy? = .ok s ∧
      ∀ {room : Nat} {o : Observation} {board : Board}, o.check? room = .ok board →
        s.drafted.check? room = .ok s → ∃ round, planObserved? room o s.drafted = .ok round ∧
          (round.plan.bets ≠ [] →
            round.plan.total + settings.fees.feeFor round.plan.total ≤ gross) := by
  have weight : 0 < bpsScale + settings.fees.bps := by
    unfold bpsScale
    omega
  obtain ⟨s, derived, net⟩ := settings.strategy?_net balance weight
  refine ⟨s, derived, ?_⟩
  intro room o board seen drafted
  have strategy := (Draft.check?_eq_ok_iff.1 drafted).2
  obtain ⟨round, run, -, same, planned⟩ := planObserved?_planned seen drafted
  refine ⟨round, run, ?_⟩
  intro bets
  obtain ⟨positive, within⟩ := planned.total_bounds same strategy bets
  exact Fee.Schedule.covered weight net positive within

-- A rebate, so that the balance carries more than itself.
def rebated : Settings :=
  { gross := some 1500
    minBet := 10
    cap := 400
    fees := ⟨0, -300, 500⟩ }

theorem rebated_strategy : rebated.strategy? =
    .ok ⟨1031, 400, 10, 1, 800000000, 2, 60, 2⟩ := by
  decide +kernel

theorem Settings.strategy?_affordable_rebate :
    ∃ s round, rebated.strategy? = .ok s ∧
      planObserved? 0 slanted.observed s.drafted = .ok round ∧ round.plan.bets ≠ [] ∧
      round.plan.total + rebated.fees.feeFor round.plan.total ≤ 1500 := by
  have balance : rebated.gross = some 1500 := rfl
  obtain ⟨s, derived, affordable⟩ := Settings.strategy?_affordable balance (by decide)
  have board : slanted.Valid := by decide
  have same := rebated_strategy
  rw [derived] at same
  cases same
  have strategy : Strategy.Valid ⟨1031, 400, 10, 1, 800000000, 2, 60, 2⟩ := by decide
  obtain ⟨round, run, covers⟩ := affordable board.check?_observed strategy.check?_drafted
  have some := planned_bets_of_unstaked board strategy run (by decide) (by decide)
    (show 0 ∈ Screen.screened slanted _ by decide) (by decide)
  exact ⟨_, round, derived, run, some, covers some⟩

end Parimutuel
