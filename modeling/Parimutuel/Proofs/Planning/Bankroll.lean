import Parimutuel.Proofs.Planning.Gain
import Parimutuel.Proofs.Search.Bankroll
import Parimutuel.Proofs.Snap.Grown

namespace Parimutuel

open Model (takenAt)

variable {board : Board} {s : Strategy} {b : Int} {t t' : Trace}

theorem Strategy.Valid.richer (valid : s.Valid) (order : s.bankroll ≤ b) :
    Strategy.Valid { s with bankroll := b } :=
  { valid with bankroll_nonneg := Int.le_trans valid.bankroll_nonneg order }

-- Pricing looks at no bankroll.
theorem Model.quoteAt_bankroll (board : Board) (s : Strategy) (b : Int) (stakes : Stakes) :
    ((bare board { s with bankroll := b }).against stakes).quoteAt =
      ((bare board s).against stakes).quoteAt := rfl

theorem Screen.screened_bankroll (board : Board) (s : Strategy) (b : Int) :
    screened board { s with bankroll := b } = screened board s := rfl

theorem Planner.search_bankroll (board : Board) (s : Strategy) (b : Int) (candidates : List Int)
    (t : Terms) (held : Stakes) :
    search (Model.bare board { s with bankroll := b }) candidates t held =
      search (Model.bare board s) candidates t held := rfl

theorem Planner.idle_richer (strategy : s.Valid) (order : s.bankroll ≤ b)
    (due : idle? board s = none) : idle? board { s with bankroll := b } = none := by
  have least := strategy.minBet_pos
  unfold idle? at due ⊢
  split at due
  · cases due
  · cases due
  · rename_i phase
    split at due
    · cases due
    · split at due
      · cases due
      · rw [phase, if_neg (by dsimp only; omega), if_neg (by dsimp only; omega)]

namespace Trace.Sound

theorem funded_richer (poor : t.Sound board s) (rich : t'.Sound board { s with bankroll := b })
    (order : s.bankroll ≤ b) :
    t.funded = t'.funded ∨ (t.budget < s.minBet ∧ t.funded ⊆ t'.funded) := by
  have left := poor.funded
  have right := rich.funded
  rw [poor.candidates] at left
  rw [rich.candidates, Screen.screened_bankroll] at right
  rw [poor.budget, left, right]
  exact Planner.fund_richer order _

theorem funded_subset (poor : t.Sound board s) (rich : t'.Sound board { s with bankroll := b })
    (order : s.bankroll ≤ b) : t.funded ⊆ t'.funded := by
  rcases poor.funded_richer rich order with same | ⟨_, fewer⟩
  · rw [same]
    exact List.Subset.refl _
  · exact fewer

end Trace.Sound

-- What trimming leaves of the stake on an option.
def Trace.fitted (t : Trace) (s : Strategy) (i : Int) : Int :=
  Snap.fit s (t.chosen.stakes.amount i + t.funded.amount i)

namespace Trace.Sound

theorem chosen_nonneg (sound : t.Sound board s) (i : Int) : 0 ≤ t.chosen.stakes.amount i :=
  Stakes.amount_nonneg (fun p member => Int.le_of_lt (sound.chosen_positive p member)) i

theorem snapped_nonneg (sound : t.Sound board s) (strategy : s.Valid) (i : Int) :
    0 ≤ t.snapped.stakes.amount i :=
  Stakes.amount_nonneg (fun p member => Int.le_of_lt (sound.kept.positive strategy p member)) i

theorem snapped_amount (sound : t.Sound board s) {p : Int × Int} (member : p ∈ t.snapped.stakes) :
    t.snapped.stakes.amount p.1 = p.2 :=
  Stakes.amount_of_mem sound.snapped_placed.distinct member

theorem amount_trimmed (sound : t.Sound board s) (strategy : s.Valid) (i : Int) :
    (Snap.trimmed s (Stakes.sorted (t.chosen.stakes ++ t.funded))).amount i = t.fitted s i := by
  have sorted := sound.drafted_placed.perm (Stakes.sorted_perm _).symm
  rw [Snap.amount_trimmed strategy sorted, Stakes.amount_perm sorted.distinct (Stakes.sorted_perm _),
    Stakes.amount_append sound.apart, Trace.fitted]

theorem fitted_nonneg (sound : t.Sound board s) (strategy : s.Valid) (i : Int) : 0 ≤ t.fitted s i := by
  have least := Snap.fit_mono strategy (Int.add_nonneg (sound.chosen_nonneg i)
    (Stakes.amount_nonneg (sound.funded_nonneg strategy) i))
  rw [Snap.fit_zero strategy] at least
  exact least

theorem amount_le_fitted (sound : t.Sound board s) (strategy : s.Valid) (i : Int) :
    t.snapped.stakes.amount i ≤ t.fitted s i := by
  by_cases kept : t.snapped.stakes.amount i = 0
  · rw [kept]
    exact sound.fitted_nonneg strategy i
  · have placed := Snap.trimmed_placed s (sound.drafted_placed.perm (Stakes.sorted_perm _).symm)
    have entry := sound.kept.inside.subset (Stakes.mem_of_amount kept)
    rw [← sound.amount_trimmed strategy]
    exact Int.le_of_eq (Stakes.amount_of_mem placed.distinct entry).symm

theorem fitted_funded (sound : t.Sound board s) (strategy : s.Valid) {p : Int × Int}
    (member : p ∈ t.funded) : t.fitted s p.1 = p.2 := by
  have absent : p.1 ∉ t.chosen.stakes.numbers := fun found =>
    sound.apart p.1 found (Stakes.numbers_of_mem member)
  rw [fitted, Stakes.amount_of_not_mem absent, Stakes.amount_of_mem sound.funded_placed.distinct member,
    sound.funded_amount member, Int.zero_add, Snap.fit_minBet strategy]

theorem chosen_le_peak (sound : t.Sound board s) (once : s.passes = 0) (i : Int) :
    ∃ price, 0 ≤ price ∧ t.chosen.stakes.amount i ≤
      (((Model.bare board s).against t.funded).quoteAt i).peak price := by
  rw [sound.chosen_first once]
  by_cases nothing : (Planner.search (Model.bare board s) t.candidates (Planner.terms s t.budget)
      t.funded).stakes.amount i = 0
  · rw [nothing]
    exact ⟨0, Int.le_refl 0, Quote.peak_nonneg _ 0⟩
  · exact ⟨_, ShadowPrice.solution_le_peak (Stakes.mem_of_amount nothing)⟩

section Richer

variable (poor : t.Sound board s) (rich : t'.Sound board { s with bankroll := b }) (valid : board.Valid)
  (strategy : s.Valid) (order : s.bankroll ≤ b) (once : s.passes = 0)

include poor rich valid strategy order once

-- Where the search is made with the same bets held, more money finds no less.
theorem chosen_richer (same : t.funded = t'.funded) (i : Int) :
    t.chosen.stakes.amount i ≤ t'.chosen.stakes.amount i := by
  have base := Model.bare_sound (s := s) valid strategy.unitValue_nonneg
  have left := poor.budget
  have right := rich.budget
  have budget : t.budget ≤ t'.budget := by
    rw [left, right, same]
    dsimp only
    omega
  rw [poor.chosen_first once, rich.chosen_first once, rich.candidates, Screen.screened_bankroll,
    ← poor.candidates, ← same, Planner.search_bankroll]
  apply ShadowPrice.solution_amount_le (t := Planner.terms s t.budget) (base.against t.funded) _
    (Int.le_of_lt strategy.cap_pos) budget
  rw [poor.candidates]
  exact Planner.staked_known (Screen.screened_known board s)

theorem amount_le_richer (same : t.funded = t'.funded) (i : Int) :
    t.snapped.stakes.amount i ≤ t'.fitted s i := by
  have found := poor.chosen_richer rich valid strategy order once same i
  apply Int.le_trans (poor.amount_le_fitted strategy i)
  rw [fitted, fitted, same]
  exact Snap.fit_mono strategy (Int.add_le_add_right found _)

-- A bet ahead of the search stays as it is, and what was searched for keeps below the peak it has next
-- to the bets that were made with less.
theorem room_richer (same : t.funded = t'.funded) {i : Int} (named : i ∈ t.snapped.stakes.numbers) :
    t'.fitted s i = t.snapped.stakes.amount i ∨ ∃ price, 0 ≤ price ∧
      t'.fitted s i ≤ (((Model.bare board s).against t.snapped.stakes).quoteAt i).peak price := by
  obtain ⟨p, entry, rfl⟩ := List.mem_map.1 named
  have amount := poor.snapped_amount entry
  rcases poor.snapped_origin strategy entry with held | ⟨q, found, option, _, _⟩
  · have kept := rich.fitted_funded (strategy.richer order) (same ▸ held)
    exact .inl (kept.trans amount.symm)
  · have base := Model.bare_sound (s := s) valid strategy.unitValue_nonneg
    have known := poor.snapped_placed.known p.1 named
    have searched : p.1 ∉ t'.funded.numbers := by
      rw [← same, ← option]
      exact poor.apart q.1 (Stakes.numbers_of_mem found)
    have below := Model.against_below base poor.snapped_placed.distinct
      (poor.funded_kept valid strategy) known
    obtain ⟨taken, prize, _⟩ := (base.against t.funded).quoteAt_nonneg known
    obtain ⟨price, free, peak⟩ := rich.chosen_le_peak once p.1
    rw [Model.quoteAt_bankroll, ← same] at peak
    refine .inr ⟨price, free, ?_⟩
    rw [fitted, Stakes.amount_of_not_mem searched, Int.add_zero]
    exact Int.le_trans (Snap.fit_le strategy (rich.chosen_nonneg p.1))
      (Int.le_trans peak (below.peak taken prize price))

-- The bets made with less money, raised to what more money finds, pay together, so they are kept.
theorem raised_kept (same : t.funded = t'.funded) :
    t.snapped.stakes.raised (t'.fitted s) ⊆ t'.snapped.stakes := by
  have base := Model.bare_sound (s := s) valid strategy.unitValue_nonneg
  apply rich.kept.greatest
  · intro p member
    obtain ⟨q, entry, rfl⟩ := List.mem_map.1 member
    have more := poor.amount_le_richer rich valid strategy order once same q.1
    have positive := poor.kept.positive strategy q entry
    have amount := poor.snapped_amount entry
    have trimmed : _ = t'.fitted s q.1 := rich.amount_trimmed (strategy.richer order) q.1
    rw [← trimmed] at more ⊢
    exact Stakes.mem_of_amount (by omega)
  · exact base.pays_raised poor.snapped_placed poor.kept.pays (poor.kept.positive strategy)
      (poor.amount_le_richer rich valid strategy order once same)
      fun i named => poor.room_richer rich valid strategy order once same named

-- No bet shrinks.
theorem amount_richer (i : Int) : t.snapped.stakes.amount i ≤ t'.snapped.stakes.amount i := by
  by_cases staked : t.snapped.stakes.amount i = 0
  · rw [staked]
    exact rich.snapped_nonneg (strategy.richer order) i
  · have entry := Stakes.mem_of_amount staked
    rcases poor.funded_richer rich order with same | ⟨short, fewer⟩
    · have raised := poor.raised_kept rich valid strategy order once same (List.mem_map_of_mem entry)
      have amount : t'.snapped.stakes.amount i = t'.fitted s i := rich.snapped_amount raised
      rw [amount]
      exact poor.amount_le_richer rich valid strategy order once same i
    · have held := rich.funded_kept valid (strategy.richer order)
        (fewer (poor.snapped_funded strategy short entry))
      exact Int.le_of_eq (rich.snapped_amount held).symm

theorem total_richer : t.snapped.stakes.total ≤ t'.snapped.stakes.total := by
  rw [Stakes.total_eq_sum poor.snapped_placed, Stakes.total_eq_sum rich.snapped_placed]
  exact Finset.sum_le_sum fun i _ => poor.amount_richer rich valid strategy order once i

end Richer

theorem bets_unstaked (poor : t.Sound board s) (rich : t'.Sound board { s with bankroll := b })
    (valid : board.Valid) (strategy : s.Valid) (order : s.bankroll ≤ b) {bet : Bet}
    (member : bet ∈ t.bets) (unstaked : takenAt board bet.option = 0) : bet ∈ t'.bets := by
  rw [poor.bets] at member
  obtain ⟨p, entry, rfl⟩ := List.mem_map.1 member
  have held := poor.funded_subset rich order (poor.snapped_unstaked strategy entry unstaked)
  rw [rich.bets]
  exact List.mem_map_of_mem (rich.funded_kept valid (strategy.richer order) held)

end Trace.Sound

namespace Course.Planned

variable {less more : Round}

theorem plan_nonneg (strategy : s.Valid) (same : less.strategy = s)
    (planned : Planned board s less.course) :
    (∀ i, 0 ≤ less.plan.stakes.amount i) ∧ 0 ≤ less.plan.total := by
  rcases planned.plan_cases same with ⟨reason, empty⟩ | ⟨t, sound, full⟩
  · rw [empty]
    exact ⟨fun _ => Int.le_refl 0, Int.le_refl 0⟩
  · rw [full, sound.plan_stakes, sound.plan_total]
    refine ⟨sound.snapped_nonneg strategy, ?_⟩
    rw [Stakes.total_eq_sum sound.snapped_placed]
    exact Finset.sum_nonneg fun i _ => sound.snapped_nonneg strategy i

-- What is planned to the end with less money is so with more.
theorem plan_richer (strategy : s.Valid) (order : s.bankroll ≤ b) (same : less.strategy = s)
    (poor : Planned board s less.course) (same' : more.strategy = { s with bankroll := b })
    (rich : Planned board { s with bankroll := b } more.course) :
    (∃ reason, less.plan = .empty s.bankroll reason) ∨ ∃ t t' : Trace, t.Sound board s ∧
      t'.Sound board { s with bankroll := b } ∧ less.plan = t.plan s.bankroll ∧ more.plan = t'.plan b := by
  obtain ⟨seen, drafted, course⟩ := less
  subst same
  cases poor with
  | idle reason early => exact .inl ⟨reason, rfl⟩
  | hopeless due nobody => exact .inl ⟨.noPositiveValue, rfl⟩
  | full t due somebody sound =>
    obtain ⟨t', later, full⟩ :=
      rich.plan_full same' (Planner.idle_richer strategy order due) somebody
    exact .inr ⟨t, t', sound, later, rfl, full⟩

end Course.Planned

theorem planObserved?_richer {room : Nat} {o : Observation} {d e : Draft} (seen : o.check? room = .ok board)
    (poor : d.check? room = .ok s) (rich : e.check? room = .ok { s with bankroll := b })
    (order : s.bankroll ≤ b) :
    ∃ less more, planObserved? room o d = .ok less ∧ planObserved? room o e = .ok more ∧
      (∀ bet ∈ less.plan.bets, takenAt board bet.option = 0 → bet ∈ more.plan.bets) ∧
      (s.passes = 0 → (∀ i, less.plan.stakes.amount i ≤ more.plan.stakes.amount i) ∧
        less.plan.total ≤ more.plan.total) := by
  have strategy := (Draft.check?_eq_ok_iff.1 poor).2
  have valid := (Observation.check?_eq_ok_iff.1 seen).2
  obtain ⟨less, run, -, same, planned⟩ := planObserved?_planned seen poor
  obtain ⟨more, rerun, -, same', replanned⟩ := planObserved?_planned seen rich
  refine ⟨less, more, run, rerun, ?_⟩
  rcases planned.plan_richer strategy order same same' replanned with
    ⟨reason, empty⟩ | ⟨t, t', sound, later, full, refull⟩
  · rw [empty]
    refine ⟨?_, fun _ => replanned.plan_nonneg (strategy.richer order) same'⟩
    intro bet member
    cases member
  · rw [full, refull, sound.plan_stakes, later.plan_stakes, sound.plan_total, later.plan_total]
    exact ⟨fun bet member => sound.bets_unstaked later valid strategy order member, fun once =>
      ⟨sound.amount_richer later valid strategy order once,
        sound.total_richer later valid strategy order once⟩⟩

-- The same strategy with ten times the money, on options that are staked and one that is not.
theorem planObserved?_richer_tenfold :
    ∃ less more,
      planObserved? 0 slanted.observed (Strategy.drafted ⟨70, 90, 4, 2, rewardScale, 2, 60, 0⟩) = .ok less ∧
      planObserved? 0 slanted.observed (Strategy.drafted ⟨700, 90, 4, 2, rewardScale, 2, 60, 0⟩) =
        .ok more ∧
      less.plan.total ≤ more.plan.total := by
  have board : slanted.Valid := by decide
  have strategy : Strategy.Valid ⟨70, 90, 4, 2, rewardScale, 2, 60, 0⟩ := by decide
  have richer : Strategy.Valid ⟨700, 90, 4, 2, rewardScale, 2, 60, 0⟩ := by decide
  obtain ⟨less, more, run, rerun, -, grown⟩ :=
    planObserved?_richer board.check?_observed strategy.check?_drafted richer.check?_drafted (by decide)
  exact ⟨less, more, run, rerun, (grown rfl).2⟩

-- Six options that others staked and nineteen that they hardly did. The nineteen are worth less than
-- the smallest bet, and the six are worth the more the more is put on the nineteen.
def uneven : Board :=
  ⟨List.replicate 6 240 ++ List.replicate 19 1, List.replicate 25 0, 0, 1, true, 6000⟩

def eager (bankroll : Int) : Strategy :=
  { bankroll, cap := 100, minBet := 50, tick := 50, unitValue := rewardScale }

-- The first six options.
def leading (x : Int) : Stakes := [(0, x), (1, x), (2, x), (3, x), (4, x), (5, x)]

theorem tiered_settled {terms : Terms} {held : Stakes} {x y : Int} (valid : board.Valid)
    (strategy : s.Valid) (somebody : Planner.staked (Model.bare board s) options ≠ [])
    (bankroll : 0 < terms.bankroll) (cap : 0 ≤ terms.cap)
    (exceeded : terms.bankroll < ShadowPrice.spending ((Model.bare board s).against held) terms.cap
      (Planner.staked (Model.bare board s) options).eraseDups 0)
    (wishes : (ShadowPrice.demand ((Model.bare board s).against held) terms.cap
      (Planner.staked (Model.bare board s) options).eraseDups
      (ShadowPrice.settled ((Model.bare board s).against held) (Planner.staked (Model.bare board s) options)
        terms).1.high).positive = tiered x y) :
    (Planner.search (Model.bare board s) options terms held).stakes = tiered x y := by
  have base := Model.bare_sound (s := s) valid strategy.unitValue_nonneg
  have known : ∀ i ∈ Planner.staked (Model.bare board s) options, i ∈ options :=
    Planner.staked_known fun _ member => member
  exact ShadowPrice.solution_settled (base.against held) known cap somebody bankroll exceeded wishes
    (tiered_ascending x y)

-- The bankroll binds in both passes.
theorem eager_searched_poor :
    (Planner.searched (Model.bare uneven (eager 700)) options (eager 700) []).1.stakes = tiered 59 18 := by
  have valid : uneven.Valid := by decide
  have strategy : (eager 700).Valid := by decide
  have somebody : Planner.staked (Model.bare uneven (eager 700)) options ≠ [] := by decide +kernel
  have bankroll : 0 < (Planner.terms (eager 700) (eager 700).bankroll).bankroll := by decide
  have cap : 0 ≤ (Planner.terms (eager 700) (eager 700).bankroll).cap := by decide
  apply tiered_searched 28 16 55 18 59 18 rfl
  · exact tiered_search somebody bankroll (by decide +kernel) (by decide +kernel)
  · exact tiered_settled valid strategy somebody bankroll cap (by decide +kernel) (by decide +kernel)
  · exact tiered_settled valid strategy somebody bankroll cap (by decide +kernel) (by decide +kernel)
  · decide
  · decide

-- The bankroll never binds.
theorem eager_searched_rich :
    (Planner.searched (Model.bare uneven (eager 2500)) options (eager 2500) []).1.stakes =
      tiered 100 41 := by
  have somebody : Planner.staked (Model.bare uneven (eager 2500)) options ≠ [] := by decide +kernel
  have bankroll : 0 < (Planner.terms (eager 2500) (eager 2500).bankroll).bankroll := by decide
  apply tiered_searched 28 16 100 34 100 41 rfl
  · exact tiered_search somebody bankroll (by decide +kernel) (by decide +kernel)
  · exact tiered_search somebody bankroll (by decide +kernel) (by decide +kernel)
  · exact tiered_search somebody bankroll (by decide +kernel) (by decide +kernel)
  · decide
  · decide

-- What pays at half the size next to five others of that size does not pay at the full size.
theorem eager_snapped_poor (sound : t.Sound uneven (eager 700)) : t.snapped.stakes = leading 50 := by
  have kept := sound.tiered_kept (by decide +kernel) (by decide +kernel) eager_searched_poor
  rw [show Snap.trimmed (eager 700) (tiered 59 18) = leading 50 by decide +kernel] at kept
  apply kept.all (by decide)
  unfold Model.Pays
  decide +kernel

theorem eager_snapped_rich (sound : t.Sound uneven (eager 2500)) : t.snapped.stakes = [] := by
  have base : (Model.bare uneven (eager 2500)).Sound := Model.bare_sound (by decide) (by decide)
  have kept := sound.tiered_kept (by decide +kernel) (by decide +kernel) eager_searched_rich
  rw [show Snap.trimmed (eager 2500) (tiered 100 41) = leading 100 by decide +kernel] at kept
  exact kept.nothing base ⟨by decide, by decide⟩ (by decide +kernel)

theorem planObserved?_total_falls :
    uneven.observed.check? 0 = .ok uneven ∧ (eager 700).drafted.check? 0 = .ok (eager 700) ∧
      (eager 2500).drafted.check? 0 = .ok { eager 700 with bankroll := 2500 } ∧
      ∃ less more, planObserved? 0 uneven.observed (eager 700).drafted = .ok less ∧
        planObserved? 0 uneven.observed (eager 2500).drafted = .ok more ∧
        less.plan.total = 300 ∧ more.plan.total = 0 := by
  have seen : uneven.observed.check? 0 = .ok uneven := Board.Valid.check?_observed (by decide)
  have poor : (eager 700).drafted.check? 0 = .ok (eager 700) := Strategy.Valid.check?_drafted (by decide)
  have rich : (eager 2500).drafted.check? 0 = .ok (eager 2500) := Strategy.Valid.check?_drafted (by decide)
  have somebody : ∀ b, Screen.screened uneven (eager b) ≠ [] := by
    intro b
    rw [show Screen.screened uneven (eager b) = Screen.screened uneven (eager 0) from rfl]
    decide +kernel
  obtain ⟨less, run, -, same, planned⟩ := planObserved?_planned seen poor
  obtain ⟨more, rerun, -, same', replanned⟩ := planObserved?_planned seen rich
  obtain ⟨t, sound, full⟩ := planned.plan_full same (by decide) (somebody 700)
  obtain ⟨t', later, refull⟩ := replanned.plan_full same' (by decide) (somebody 2500)
  refine ⟨seen, poor, rich, less, more, run, rerun, ?_, ?_⟩
  · rw [full, sound.plan_total, eager_snapped_poor sound]
    rfl
  · rw [refull, later.plan_total, eager_snapped_rich later]
    rfl

end Parimutuel
