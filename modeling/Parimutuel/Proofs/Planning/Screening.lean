import Parimutuel.Proofs.Acceptance
import Parimutuel.Proofs.Planning.Stages
import Parimutuel.Proofs.Pricing.Threshold

namespace Parimutuel

namespace Screen

variable {board : Board} {s : Strategy} {i x : Int}

theorem dropped_worth (member : i ∈ options) (dropped : i ∉ screened board s) :
    (Model.takenAt board i = 0 → ((Model.bare board s).quoteAt i).value s.minBet ≤ 0) ∧
      (Model.takenAt board i ≠ 0 → ((Model.bare board s).quoteAt i).marginal 0 ≤ 0) := by
  have taken : ((Model.bare board s).quoteAt i).taken = Model.takenAt board i := rfl
  have fails : ¬ promising (Model.bare board s) s.minBet i = true := fun passes =>
    dropped (List.mem_filter.2 ⟨member, passes⟩)
  rw [promising, taken] at fails
  constructor
  · intro unstaked
    rw [if_pos unstaked, decide_eq_true_iff] at fails
    exact Int.not_lt.1 fails
  · intro staked
    rw [if_neg staked, decide_eq_true_iff] at fails
    exact Int.not_lt.1 fails

theorem value_nonpos_of_staked (valid : board.Valid) (bounded : ∀ t ∈ board.stakes, t ≤ wad * wad)
    (member : i ∈ options) (dropped : i ∉ screened board s) (staked : Model.takenAt board i ≠ 0)
    (positive : 1 ≤ x) : ((Model.bare board s).quoteAt i).value x ≤ 0 := by
  have least := Model.takenAt_nonneg valid i
  have taken : 0 < Model.takenAt board i := by omega
  exact Quote.value_nonpos_of_first taken (Model.takenAt_le (by decide) bounded i)
    (Model.bare_cross board s member) ((dropped_worth member dropped).2 staked) positive

theorem value_nonpos_of_unstaked (valid : board.Valid) (strategy : s.Valid) (member : i ∈ options)
    (dropped : i ∉ screened board s) (unstaked : Model.takenAt board i = 0) (bet : s.minBet ≤ x) :
    ((Model.bare board s).quoteAt i).value x ≤ 0 := by
  have sound := Model.bare_sound (s := s) valid strategy.unitValue_nonneg
  have falls := Quote.value_antitone_of_unstaked unstaked (sound.cross_le member) strategy.minBet_pos bet
  exact Int.le_trans falls ((dropped_worth member dropped).1 unstaked)

theorem kept?_misses_nothing (valid : board.Valid) (strategy : s.Valid)
    (bounded : ∀ t ∈ board.stakes, t ≤ wad * wad) :
    ∃ kept m, kept? board s = .ok kept ∧ Model.bare? board s = .ok m ∧
      ∀ i ∈ options, i ∉ kept → ∃ taken, m.taken? i = .ok taken ∧
        ∀ x, s.minBet ≤ x ∨ 0 < taken ∧ 1 ≤ x → ∃ value, m.value? i x = .ok value ∧ value ≤ 0 := by
  have sound := Model.bare_sound (s := s) valid strategy.unitValue_nonneg
  refine ⟨_, _, kept?_ok valid strategy.unitValue_nonneg, Model.bare?_ok s valid, ?_⟩
  intro i member dropped
  refine ⟨_, Model.read_taken valid member, ?_⟩
  intro x bet
  refine ⟨_, sound.value? member x, ?_⟩
  have smallest := strategy.minBet_pos
  by_cases unstaked : Model.takenAt board i = 0
  · apply value_nonpos_of_unstaked valid strategy member dropped unstaked
    omega
  · apply value_nonpos_of_staked valid bounded member dropped unstaked
    omega

-- An option that nobody staked, one that holds nearly everything, and little on all others.
def lopsided : Board :=
  ⟨0 :: 1000000 :: List.replicate 23 100, List.replicate 25 0, 1090, 0, true, 0⟩

-- The smallest bet is too much for the first option, and the second pays nothing at all.
theorem kept?_misses_nothing_lopsided :
    ∃ kept m, kept? lopsided ⟨900000, 200000, 100000, 1, 0, 2, 60, 2⟩ = .ok kept ∧
      Model.bare? lopsided ⟨900000, 200000, 100000, 1, 0, 2, 60, 2⟩ = .ok m ∧ 0 ∉ kept ∧ 1 ∉ kept ∧
      (∃ value, m.value? 0 150000 = .ok value ∧ value ≤ 0) ∧
      ∃ value, m.value? 1 1 = .ok value ∧ value ≤ 0 := by
  obtain ⟨kept, m, run, pricing, missed⟩ := @kept?_misses_nothing lopsided
    ⟨900000, 200000, 100000, 1, 0, 2, 60, 2⟩ (by decide) (by decide) (by decide)
  have others : kept? lopsided ⟨900000, 200000, 100000, 1, 0, 2, 60, 2⟩ =
      .ok ((List.range' 2 23).map Int.ofNat) := by decide
  cases run.symm.trans others
  obtain ⟨_, _, first⟩ := missed 0 (by decide) (by decide)
  obtain ⟨taken, read, second⟩ := missed 1 (by decide) (by decide)
  have staked : (do (← Model.bare? lopsided ⟨900000, 200000, 100000, 1, 0, 2, 60, 2⟩).taken? 1) =
      .ok 1000000 := by decide
  rw [pricing] at staked
  cases read.symm.trans staked
  exact ⟨_, m, run, pricing, by decide, by decide, first 150000 (.inl (by decide)),
    second 1 (.inr ⟨by decide, by decide⟩)⟩

end Screen
end Parimutuel
