import Parimutuel.Proofs.Planning.Gain

namespace Parimutuel

open Model (takenAt)

variable {board : Board} {s : Strategy} {t : Trace} {i j : Int}

def Board.unstaked (b : Board) : List Int := options.filter fun i => takenAt b i == 0

def Strategy.reach (s : Strategy) (b : Board) : Nat :=
  min b.unstaked.length (s.bankroll / s.minBet).toNat

theorem Board.mem_unstaked : i ∈ board.unstaked ↔ i ∈ options ∧ takenAt board i = 0 := by
  rw [unstaked, List.mem_filter, beq_iff_eq]

theorem options_ascending : options.Pairwise (· < ·) := by decide

theorem Model.bare_alike (first : i ∈ board.unstaked) (second : j ∈ board.unstaked) :
    (bare board s).quoteAt i = (bare board s).quoteAt j := by
  obtain ⟨left, none⟩ := Board.mem_unstaked.1 first
  obtain ⟨right, none'⟩ := Board.mem_unstaked.1 second
  have prize : prizeAt board s Holdings.none i = prizeAt board s Holdings.none j := by
    rw [prizeAt, prizeAt, none, none', Holdings.ownAt_none, Holdings.ownAt_none]
  have cross := (bare_cross board s left).trans (bare_cross board s right).symm
  exact Quote.mk.injEq .. ▸ ⟨none.trans none'.symm, prize, cross⟩

theorem Stakes.total_level (row : List Int) (x : Int) :
    Stakes.total (row.map fun i => (i, x)) = row.length * x := by
  induction row with
  | nil => exact (Int.zero_mul x).symm
  | cons i rest ih =>
    rw [List.map_cons, total_cons, ih, List.length_cons, Int.natCast_add, Int.add_mul]
    exact (Int.add_comm _ _).trans (congrArg _ (Int.one_mul x).symm)

namespace Screen

theorem unstaked_kept (board : Board) (s : Strategy) :
    board.unstaked ⊆ screened board s ∨ ∀ i ∈ board.unstaked, i ∉ screened board s := by
  by_cases some : ∃ i ∈ board.unstaked, i ∈ screened board s
  · obtain ⟨i, first, kept⟩ := some
    left
    intro j second
    have passes := (List.mem_filter.1 kept).2
    rw [promising, Model.bare_alike first second] at passes
    exact List.mem_filter.2 ⟨(Board.mem_unstaked.1 second).1, passes⟩
  · right
    intro i first kept
    exact some ⟨i, first, kept⟩

end Screen

namespace Planner

theorem flat_unstaked (kept : board.unstaked ⊆ Screen.screened board s) :
    flat (Model.bare board s) (Screen.screened board s) = board.unstaked := by
  rw [flat, Screen.screened, List.filter_filter]
  apply List.filter_congr
  intro i member
  change (takenAt board i == 0 && _) = (takenAt board i == 0)
  cases none : takenAt board i == 0 with
  | false => rfl
  | true =>
    have passes := kept (Board.mem_unstaked.2 ⟨member, eq_of_beq none⟩)
    exact (List.mem_filter.1 passes).2

theorem ranked_alike {row : List Int} {value : Int → Int} (ascending : row.Pairwise (· < ·))
    (alike : ∀ i ∈ row, ∀ j ∈ row, value i = value j) :
    ranked (row.map fun i => (i, value i)) = row := by
  have sorted : (row.map fun i => (i, value i)).Pairwise fun p q =>
      decide (q.2 < p.2) || (decide (p.2 = q.2) && decide (p.1 ≤ q.1)) := by
    rw [List.pairwise_map]
    apply ascending.imp_of_mem
    intro i j first second less
    simp [alike i first j second, Int.le_of_lt less]
  rw [ranked, List.mergeSort_of_pairwise sorted, List.map_map]
  exact List.map_id row

theorem fund_eq_take {minBet budget : Int} (positive : 0 < minBet) (least : 0 ≤ budget)
    (row : List Int) :
    fund minBet budget row = (row.take (budget / minBet).toNat).map fun i => (i, minBet) := by
  induction row generalizing budget with
  | nil => rw [List.take_nil]; rfl
  | cons i rest ih =>
    rw [fund]
    by_cases short : budget < minBet
    · rw [if_pos short, Int.ediv_eq_zero_of_lt least short]
      rfl
    · have one := Int.add_ediv_of_dvd_right (a := budget - minBet) (Int.dvd_refl minBet)
      rw [Int.sub_add_cancel, Int.ediv_self (Int.ne_of_gt positive)] at one
      have others : 0 ≤ (budget - minBet) / minBet :=
        Int.ediv_nonneg (by omega) (Int.le_of_lt positive)
      have count : (budget / minBet).toNat = ((budget - minBet) / minBet).toNat + 1 := by omega
      rw [if_neg short, ih (by omega), count, List.take_succ_cons, List.map_cons]

theorem fundFlat_unstaked (strategy : s.Valid) (kept : board.unstaked ⊆ Screen.screened board s) :
    fundFlat (Model.bare board s) (Screen.screened board s) s =
      (board.unstaked.take (s.reach board)).map fun i => (i, s.minBet) := by
  have ascending : board.unstaked.Pairwise (· < ·) := options_ascending.filter _
  have alike : ∀ i ∈ board.unstaked, ∀ j ∈ board.unstaked,
      ((Model.bare board s).quoteAt i).value s.minBet = ((Model.bare board s).quoteAt j).value s.minBet := by
    intro i first j second
    rw [Model.bare_alike first second]
  rw [fundFlat, flat_unstaked kept, ranked_alike ascending alike,
    fund_eq_take strategy.minBet_pos strategy.bankroll_nonneg, Strategy.reach, Nat.min_comm,
    ← List.take_eq_take_min]

end Planner

namespace Trace.Sound

variable (sound : t.Sound board s)

include sound

theorem unstaked_funded (strategy : s.Valid) (kept : board.unstaked ⊆ Screen.screened board s) :
    t.funded = (board.unstaked.take (s.reach board)).map fun i => (i, s.minBet) := by
  rw [sound.funded, sound.candidates]
  exact Planner.fundFlat_unstaked strategy kept

theorem snapped_flat (valid : board.Valid) (strategy : s.Valid)
    (ordered : t.funded.numbers.Pairwise (· < ·)) :
    (t.snapped.stakes.filter fun p => takenAt board p.1 == 0) = t.funded := by
  have ascending := sound.kept.ascending sound.drafted_placed
  have part := List.filter_sublist (p := fun p : Int × Int => takenAt board p.1 == 0)
    (l := t.snapped.stakes)
  apply Stakes.eq_of_subset (ascending.sublist (part.map Prod.fst)) ordered
  · intro p member
    obtain ⟨entry, none⟩ := List.mem_filter.1 member
    exact sound.snapped_unstaked strategy entry (eq_of_beq none)
  · intro p held
    have none := (sound.funded_unstaked (Stakes.numbers_of_mem held)).2
    exact List.mem_filter.2 ⟨sound.funded_kept valid strategy held, beq_iff_eq.2 none⟩

theorem unstaked_bets (valid : board.Valid) (strategy : s.Valid)
    (kept : board.unstaked ⊆ Screen.screened board s) :
    (t.bets.filter fun b => takenAt board b.option == 0) =
      (board.unstaked.take (s.reach board)).map fun i => ⟨i, s.minBet⟩ := by
  have funded := sound.unstaked_funded strategy kept
  have ordered : t.funded.numbers.Pairwise (· < ·) := by
    rw [funded, Stakes.numbers, List.map_map]
    exact ((options_ascending.filter _).sublist (List.take_sublist _ _)).map _ fun _ _ less => less
  have flat := sound.snapped_flat valid strategy ordered
  rw [funded] at flat
  have bets : ((fun b : Bet => takenAt board b.option == 0) ∘ fun p : Int × Int => ⟨p.1, p.2⟩) =
      fun p => takenAt board p.1 == 0 := rfl
  rw [sound.bets, List.filter_map, bets, flat, List.map_map]
  rfl

theorem bets_of_short (strategy : s.Valid) (kept : board.unstaked ⊆ Screen.screened board s)
    (short : s.bankroll - s.reach board * s.minBet < s.minBet) :
    ∀ bet ∈ t.bets, takenAt board bet.option = 0 := by
  intro bet member
  have budget := sound.budget
  have count : (board.unstaked.take (s.reach board)).length = s.reach board :=
    List.length_take_of_le (Nat.min_le_left _ _)
  rw [sound.unstaked_funded strategy kept, Stakes.total_level, count] at budget
  rw [sound.bets] at member
  obtain ⟨p, entry, rfl⟩ := List.mem_map.1 member
  have held := sound.snapped_funded strategy (budget ▸ short) entry
  exact (sound.funded_unstaked (Stakes.numbers_of_mem held)).2

theorem bets_of_dropped (strategy : s.Valid) (dropped : ∀ i ∈ board.unstaked, i ∉ Screen.screened board s) :
    ∀ bet ∈ t.bets, takenAt board bet.option ≠ 0 := by
  intro bet member none
  rw [sound.bets] at member
  obtain ⟨p, entry, rfl⟩ := List.mem_map.1 member
  have known := sound.snapped_placed.known p.1 (Stakes.numbers_of_mem entry)
  have held := sound.snapped_unstaked strategy entry none
  exact dropped p.1 (Board.mem_unstaked.2 ⟨known, none⟩)
    (sound.funded_unstaked (Stakes.numbers_of_mem held)).1

end Trace.Sound

theorem Planner.idle?_of_closing (strategy : s.Valid)
    (closing : Phase.of board.remaining s.threshold board.isOpen = .closing)
    (money : s.minBet ≤ s.bankroll) : idle? board s = none := by
  have least := strategy.minBet_pos
  rw [idle?, closing]
  dsimp only
  rw [if_neg (by omega), if_neg (by omega)]

theorem planObserved?_unstaked {room : Nat} {o : Observation} {d : Draft} (seen : o.check? room = .ok board)
    (drafted : d.check? room = .ok s)
    (closing : Phase.of board.remaining s.threshold board.isOpen = .closing)
    (money : s.minBet ≤ s.bankroll) :
    ∃ round candidates, planObserved? room o d = .ok round ∧ Screen.kept? board s = .ok candidates ∧
      (board.unstaked ⊆ candidates ∨ ∀ i ∈ board.unstaked, i ∉ candidates) ∧
      (board.unstaked ⊆ candidates →
        (round.plan.bets.filter fun b => takenAt board b.option == 0) =
          (board.unstaked.take (s.reach board)).map (fun i => ⟨i, s.minBet⟩) ∧
        (s.bankroll - s.reach board * s.minBet < s.minBet →
          ∀ bet ∈ round.plan.bets, takenAt board bet.option = 0)) ∧
      ((∀ i ∈ board.unstaked, i ∉ candidates) →
        ∀ bet ∈ round.plan.bets, takenAt board bet.option ≠ 0) := by
  have strategy := (Draft.check?_eq_ok_iff.1 drafted).2
  have valid := (Observation.check?_eq_ok_iff.1 seen).2
  have due := Planner.idle?_of_closing strategy closing money
  obtain ⟨round, run, -, same, planned⟩ := planObserved?_planned seen drafted
  refine ⟨round, _, run, Screen.kept?_ok valid strategy.unitValue_nonneg,
    Screen.unstaked_kept board s, ?_⟩
  by_cases nobody : Screen.screened board s = []
  · rw [planned.plan_hopeless same due nobody, nobody]
    refine ⟨?_, fun _ bet member => nomatch member⟩
    intro kept
    rw [List.eq_nil_of_subset_nil kept, List.take_nil]
    exact ⟨rfl, fun _ bet member => nomatch member⟩
  · obtain ⟨t, sound, full⟩ := planned.plan_full same due nobody
    rw [full]
    exact ⟨fun kept => ⟨sound.unstaked_bets valid strategy kept, sound.bets_of_short strategy kept⟩,
      sound.bets_of_dropped strategy⟩

-- Three options that nobody staked, of which the bankroll reaches for two.
def vacant : Board :=
  ⟨[20, 0, 900, 0, 0] ++ List.replicate 20 40, List.replicate 25 0, 1090, 1, true, 0⟩

theorem planObserved?_unstaked_vacant :
    ∃ round, planObserved? 0 vacant.observed (Strategy.drafted ⟨23, 90, 8, 2, 0, 2, 60, 2⟩) = .ok round ∧
      (round.plan.bets.filter fun b => takenAt vacant b.option == 0) = [⟨1, 8⟩, ⟨3, 8⟩] ∧
      ∀ bet ∈ round.plan.bets, takenAt vacant bet.option = 0 := by
  have board : vacant.Valid := by decide
  have strategy : Strategy.Valid ⟨23, 90, 8, 2, 0, 2, 60, 2⟩ := by decide
  obtain ⟨round, candidates, run, screen, -, kept, -⟩ := planObserved?_unstaked board.check?_observed
    strategy.check?_drafted (by decide) (by decide)
  have all : Screen.kept? vacant ⟨23, 90, 8, 2, 0, 2, 60, 2⟩ = .ok (options.erase 2) := by decide
  cases screen.symm.trans all
  obtain ⟨flat, short⟩ := kept (by decide)
  exact ⟨round, run, flat, short (by decide)⟩

end Parimutuel
