import Parimutuel.Proofs.Planning.Halvings
import Parimutuel.Proofs.Planning.Refinement

namespace Parimutuel

namespace Planner

def exhaust? (search : Stakes → Except Fault Solution) (funded : Stakes) :
    Nat → Solution → Except Fault (Solution × List Solution)
  | 0, current => .ok (current, [])
  | n + 1, current => do
    let next ← search (funded.merge current.stakes)
    let (last, later) ← exhaust? search funded n next
    return (last, next :: later)

-- Of at most `n` passes over what is found in turn, `m` changed something. If these are not all, the one
-- after them changed nothing.
structure Halts (found : Nat → Solution) (n m : Nat) : Prop where
  within : m ≤ n
  moved : ∀ k < m, (found (k + 1)).stakes ≠ (found k).stakes
  rests : m < n → (found (m + 1)).stakes = (found m).stakes

namespace Halts

variable {found : Nat → Solution} {n n' m m' : Nat}

theorem start (rests : 0 < n → (found 1).stakes = (found 0).stakes) : Halts found n 0 :=
  ⟨Nat.zero_le n, fun _ before => absurd before (Nat.not_lt_zero _), rests⟩

theorem later (moved : (found 1).stakes ≠ (found 0).stakes) (halts : Halts (fun k => found (k + 1)) n m) :
    Halts found (n + 1) (m + 1) := by
  refine ⟨Nat.succ_le_succ halts.within, ?_, fun early => halts.rests (Nat.lt_of_succ_lt_succ early)⟩
  intro k before
  cases k with
  | zero => exact moved
  | succ k => exact halts.moved k (Nat.lt_of_succ_lt_succ before)

-- More passes halt where fewer of them came to rest.
theorem more (halts : Halts found n m) (early : m < n) (order : n ≤ n') (other : Halts found n' m') :
    m' = m := by
  rcases Nat.lt_trichotomy m' m with before | same | after
  · have rests := other.rests (Nat.lt_of_lt_of_le (Nat.lt_trans before early) order)
    exact absurd rests (halts.moved m' before)
  · exact same
  · exact absurd (halts.rests early) (other.moved m after)

end Halts

section Passes

variable {search : Stakes → Solution} {funded : Stakes}

-- What is found after `k` passes from a given answer.
def passedFrom (search : Stakes → Solution) (funded : Stakes) (current : Solution) (k : Nat) : Solution :=
  (pass search funded)^[k] current

-- The passes end at the first that changes nothing, and the answer before it is used.
theorem refined_halts (search : Stakes → Solution) (funded : Stakes) (n : Nat) (current : Solution) :
    ∃ m, Halts (passedFrom search funded current) n m ∧ refined search funded n current =
      (passedFrom search funded current m,
        (List.range (min (m + 1) n)).map fun k => passedFrom search funded current (k + 1)) := by
  induction n generalizing current with
  | zero => exact ⟨0, .start fun early => absurd early (Nat.lt_irrefl 0), rfl⟩
  | succ n ih =>
    by_cases same : (pass search funded current).stakes = current.stakes
    · refine ⟨0, .start fun _ => same, ?_⟩
      rw [Nat.zero_add, Nat.min_eq_left (Nat.succ_le_succ (Nat.zero_le n))]
      exact if_pos same
    · obtain ⟨m, halts, made⟩ := ih (pass search funded current)
      refine ⟨m + 1, .later same halts, ?_⟩
      have turn : refined search funded (n + 1) current =
          ((refined search funded n (pass search funded current)).1,
            pass search funded current :: (refined search funded n (pass search funded current)).2) :=
        if_neg same
      rw [turn, made, Nat.succ_min_succ, List.range_succ_eq_map, List.map_cons, List.map_map]
      rfl

theorem exhaust?_ok {search? : Stakes → Except Fault Solution} {current : Solution}
    (answers : ∀ k, search? (funded.merge (passedFrom search funded current k).stakes) =
      .ok (passedFrom search funded current (k + 1))) (n : Nat) :
    exhaust? search? funded n current = .ok (passedFrom search funded current n,
      (List.range n).map fun k => passedFrom search funded current (k + 1)) := by
  induction n generalizing current with
  | zero => rfl
  | succ n ih =>
    have next : search? (funded.merge current.stakes) = .ok (pass search funded current) := answers 0
    have later := @ih (pass search funded current) fun k => answers (k + 1)
    simp only [exhaust?, next, later, bind, Except.bind, pure, Except.pure]
    rw [List.range_succ_eq_map, List.map_cons, List.map_map]
    rfl

end Passes

end Planner

variable {board : Board} {s : Strategy} {t : Trace}

namespace Planner

structure Staged (passing : Passing) (board : Board) (s : Strategy) (t : Trace) (base : Model)
    (staked : List Int) (first : Solution) (later : List Solution) : Prop where
  priced : Model.bare? board s = .ok base
  funding : fundFlat? base t.candidates s = .ok t.funded
  staking : keepWhere? (fun i => do return !(← base.flat? i)) t.candidates = .ok staked
  budget : t.budget = s.bankroll - t.funded.total
  found : search? base staked (terms s t.budget) t.funded = .ok first
  passes : passing (search? base staked (terms s t.budget)) t.funded s.passes.toNat first =
    .ok (t.chosen, later)
  solutions : t.solutions = first :: later
  snapping : Snap.snap? base (t.chosen.stakes.merge t.funded) s = .ok t.snapped
  bets : t.bets = betsOf t.snapped.stakes
  expected : expected? t.snapped.model t.bets = .ok t.expected

theorem trace?_staged {passing : Passing} {candidates : List Int} :
    trace? passing board s candidates = .ok t ↔ t.candidates = candidates ∧
      ∃ base staked first later, Staged passing board s t base staked first later := by
  simp only [trace?, bind_eq_ok_iff, pure, Except.pure, Except.ok.injEq]
  constructor
  · rintro ⟨base, priced, funded, funding, staked, staking, first, found, ⟨chosen, later⟩, passes, snapped,
      snap, expected, sum, rfl⟩
    exact ⟨rfl, base, staked, first, later, priced, funding, staking, rfl, found, passes, rfl, snap, rfl,
      sum⟩
  · rintro ⟨rfl, base, staked, first, later, stages⟩
    have found := stages.found
    have passes := stages.passes
    have expected := stages.expected
    rw [stages.budget] at found passes
    rw [stages.bets] at expected
    refine ⟨base, stages.priced, t.funded, stages.funding, staked, stages.staking, first, found,
      (t.chosen, later), passes, t.snapped, stages.snapping, t.expected, expected, ?_⟩
    rw [← stages.budget, ← stages.solutions, ← stages.bets]

namespace Staged

variable {passing : Passing} {base : Model} {staked : List Int} {first : Solution} {later : List Solution}

theorem run (stages : Staged passing board s t base staked first later) :
    trace? passing board s t.candidates = .ok t := trace?_staged.2 ⟨rfl, _, _, _, _, stages⟩

-- On a valid board every stage before the passes has its answer, whichever way these are made.
theorem start (stages : Staged passing board s t base staked first later) (valid : board.Valid)
    (nonneg : 0 ≤ s.unitValue) (screened : t.candidates = Screen.screened board s) :
    base = Model.bare board s ∧ staked = Planner.staked (Model.bare board s) (Screen.screened board s) ∧
      t.funded = ahead board s ∧ terms s t.budget = remaining board s ∧ first = sought board s 0 := by
  have sound := Model.bare_sound (s := s) valid nonneg
  have known := Screen.screened_known board s
  obtain ⟨priced, funding, staking, budget, found, -, -, -, -, -⟩ := stages
  cases priced.symm.trans (Model.bare?_ok s valid)
  rw [screened] at funding staking
  have funded : t.funded = ahead board s := Except.ok.inj (funding.symm.trans (fundFlat?_ok sound known s))
  cases staking.symm.trans (staked?_ok sound known)
  have rest : terms s t.budget = remaining board s := by rw [budget, funded, remaining]
  rw [funded, rest] at found
  exact ⟨rfl, rfl, funded, rest, Except.ok.inj (found.symm.trans (sought_passes valid nonneg).first)⟩

theorem halts (stages : Staged refine? board s t base staked first later) (valid : board.Valid)
    (nonneg : 0 ≤ s.unitValue) (screened : t.candidates = Screen.screened board s) :
    ∃ m, Halts (sought board s) s.passes.toNat m ∧ t.chosen = sought board s m ∧
      t.solutions = (List.range (min (m + 1) s.passes.toNat + 1)).map (sought board s) := by
  have sound := Model.bare_sound (s := s) valid nonneg
  obtain ⟨rfl, rfl, funded, rest, rfl⟩ := stages.start valid nonneg screened
  have made := searched?_ok sound (Screen.screened_distinct board s) (Screen.screened_known board s)
    (show ahead board s = fundFlat _ _ s from rfl) rfl
  have passes := stages.passes
  have found := stages.found
  rw [funded, rest] at passes found
  rw [← remaining, found] at made
  obtain ⟨m, halts, whole⟩ := refined_halts (search (Model.bare board s) (Screen.screened board s)
    (remaining board s)) (ahead board s) s.passes.toNat (sought board s 0)
  obtain ⟨used, rfl⟩ := Prod.mk.inj ((Except.ok.inj (passes.symm.trans made)).trans whole)
  refine ⟨m, halts, used, ?_⟩
  rw [stages.solutions, List.range_succ_eq_map, List.map_cons, List.map_map]
  rfl

theorem exhausted (stages : Staged refine? board s t base staked first later) (sound : t.Sound board s)
    (valid : board.Valid) (nonneg : 0 ≤ s.unitValue) :
    Staged exhaust? board s { t with
      chosen := sought board s s.passes.toNat
      solutions := (List.range (s.passes.toNat + 1)).map (sought board s) }
      base staked first ((List.range s.passes.toNat).map fun k => sought board s (k + 1)) := by
  have same : t.chosen.stakes = (sought board s s.passes.toNat).stakes :=
    (sound.chosen_sought (p := s.passes)).2.2
  obtain ⟨rfl, rfl, funded, rest, rfl⟩ := stages.start valid nonneg sound.candidates
  obtain ⟨priced, funding, staking, budget, found, -, -, snapping, bets, expected⟩ := stages
  refine ⟨priced, funding, staking, budget, found, ?_, ?_, ?_, bets, expected⟩
  · rw [funded, rest]
    exact exhaust?_ok (sought_passes valid nonneg).next s.passes.toNat
  · rw [List.range_succ_eq_map, List.map_cons, List.map_map]
    rfl
  · rw [← same]
    exact snapping

end Staged

end Planner

theorem planBy?_full {passing : Planner.Passing} {room : Nat} {o : Observation} {d : Draft}
    (seen : o.check? room = .ok board)
    (drafted : d.check? room = .ok s) (due : Planner.idle? board s = none)
    (somebody : Screen.screened board s ≠ [])
    (run : Planner.trace? passing board s (Screen.screened board s) = .ok t) :
    planBy? passing room o d = .ok ⟨board, s, .full t⟩ := by
  have strategy := (Draft.check?_eq_ok_iff.1 drafted).2
  have valid := (Observation.check?_eq_ok_iff.1 seen).2
  have course : Planner.course? passing board s = .ok (.full t) := by
    rw [Planner.course?, due]
    simp only [Screen.kept?_ok valid strategy.unitValue_nonneg, if_neg somebody, run, bind, Except.bind, pure,
      Except.pure]
  rw [planBy?, seen, drafted]
  simp only [Planner.round?, course, mapError_ok, bind, Except.bind, pure, Except.pure]

-- Passes that came to rest are as good as more of them.
theorem planObserved?_rested {room : Nat} {o : Observation} {q : Int} {m : Nat}
    (seen : o.check? room = .ok board)
    (strategy : s.Valid) (due : Planner.idle? board s = none) (somebody : Screen.screened board s ≠ [])
    (sound : t.Sound board s) (halts : Planner.Halts (Planner.sought board s) s.passes.toNat m)
    (used : t.chosen = Planner.sought board s m) (early : m < s.passes.toNat) (order : s.passes ≤ q) :
    ∃ more, planObserved? room o (Strategy.drafted { s with passes := q }) = .ok more ∧
      more.plan = t.plan s.bankroll := by
  have valid := (Observation.check?_eq_ok_iff.1 seen).2
  have further : Strategy.Valid { s with passes := q } :=
    { strategy with passes_nonneg := Int.le_trans strategy.passes_nonneg order }
  obtain ⟨t', run, more⟩ := Planner.trace?_sound valid further
  obtain ⟨screened, _, _, _, _, stages⟩ := Planner.trace?_staged.1 run
  obtain ⟨m', halts', used', -⟩ := stages.halts valid further.unitValue_nonneg screened
  cases halts.more early (Int.toNat_le_toNat order) halts'
  have same : t'.chosen = t.chosen := used'.trans used.symm
  refine ⟨_, planBy?_full seen further.check?_drafted due somebody run, ?_⟩
  exact sound.plan_passes more (congrArg Solution.stakes same) (congrArg Solution.price same)
    (congrArg Solution.converged same) (congrArg Solution.iterations same) s.bankroll

-- `found` is what the searches find in turn, each against what the one before it found. The passes stop
-- early where fewer of them change something than there are.
theorem planObserved?_stops {room : Nat} {o : Observation} {d : Draft} (seen : o.check? room = .ok board)
    (drafted : d.check? room = .ok s) (due : Planner.idle? board s = none) {candidates : List Int}
    (kept : Screen.kept? board s = .ok candidates) (somebody : candidates ≠ []) :
    ∃ (round full : Round) (t u : Trace) (base : Model) (staked : List Int) (found : Nat → Solution)
      (m : Nat),
      planObserved? room o d = .ok round ∧ round.course = .full t ∧
      planBy? Planner.exhaust? room o d = .ok full ∧ full.course = .full u ∧
      Model.bare? board s = .ok base ∧ Planner.fundFlat? base candidates s = .ok t.funded ∧
      keepWhere? (fun i => do return !(← base.flat? i)) candidates = .ok staked ∧
      Planner.Passes base staked (Planner.terms s (s.bankroll - t.funded.total)) t.funded found ∧
      u.solutions = (List.range (s.passes.toNat + 1)).map found ∧ u.chosen = found s.passes.toNat ∧
      Planner.Halts found s.passes.toNat m ∧
      t.solutions = (List.range (min (m + 1) s.passes.toNat + 1)).map found ∧ t.chosen = found m ∧
      full.plan.bets = round.plan.bets ∧ full.plan.expected = round.plan.expected ∧
      full.plan.reason = round.plan.reason ∧
      (m < s.passes.toNat → ∀ q, s.passes ≤ q → ∃ more,
        planObserved? room o (Strategy.drafted { s with passes := q }) = .ok more ∧
          more.plan = round.plan) := by
  have strategy := (Draft.check?_eq_ok_iff.1 drafted).2
  have valid := (Observation.check?_eq_ok_iff.1 seen).2
  have nonneg := strategy.unitValue_nonneg
  cases kept.symm.trans (Screen.kept?_ok valid nonneg)
  obtain ⟨t, run, sound⟩ := Planner.trace?_sound valid strategy
  obtain ⟨screened, base, staked, first, later, stages⟩ := Planner.trace?_staged.1 run
  obtain ⟨m, halts, used, made⟩ := stages.halts valid nonneg screened
  have all : Planner.trace? Planner.exhaust? board s t.candidates = .ok _ :=
    (stages.exhausted sound valid nonneg).run
  have funding := stages.funding
  have staking := stages.staking
  rw [screened] at all funding staking
  have passes : Planner.Passes base staked (Planner.terms s (s.bankroll - t.funded.total)) t.funded
      (Planner.sought board s) := by
    obtain ⟨rfl, rfl, funded, rest, -⟩ := stages.start valid nonneg screened
    rw [← stages.budget, rest, funded]
    exact Planner.sought_passes valid nonneg
  have round := planBy?_full seen drafted due somebody run
  have full := planBy?_full seen drafted due somebody all
  exact ⟨_, _, t, _, base, staked, _, m, round, rfl, full, rfl, stages.priced, funding, staking, passes, rfl,
    rfl, halts, made, used, rfl, rfl, rfl, fun early _ order =>
      planObserved?_rested seen strategy due somebody sound halts used early order⟩

theorem steepPass_price {held : Stakes}
    (exceeded : 3 < ShadowPrice.spending ((Model.bare steep frugal).against held) 100 [0, 1] 0) :
    (steepPass held).price = (ShadowPrice.settled ((Model.bare steep frugal).against held) [0, 1]
      (Planner.terms frugal 3)).1.high := by
  have base : (Model.bare steep frugal).Sound := Model.bare_sound (by decide) (by decide)
  have everybody : Planner.staked (Model.bare steep frugal) [0, 1] = [0, 1] := by decide
  rw [steepPass, Planner.search, everybody, ShadowPrice.solution_searched (base.against held) (by decide)
    (by decide) (by decide) (by decide) exceeded]

theorem steep_found {found : Nat → Solution}
    (passes : Planner.Passes (Model.bare steep frugal) [0, 1] (Planner.terms frugal 3) [] found) :
    found 0 = steepPass [] ∧ ∀ k, (found k).stakes = shared ∧ found (k + 1) = steepPass shared := by
  have base : (Model.bare steep frugal).Sound := Model.bare_sound (by decide) (by decide)
  have answers : ∀ {held : Stakes}, held.Placed →
      Planner.search? (Model.bare steep frugal) [0, 1] (Planner.terms frugal 3) held =
      .ok (steepPass held) := by
    intro held placed
    have answer : Planner.search? _ (Planner.staked (Model.bare steep frugal) [0, 1]) _ held =
        .ok (steepPass held) := Planner.search?_ok base (by decide) (Planner.terms frugal 3) placed
    rwa [show Planner.staked (Model.bare steep frugal) [0, 1] = [0, 1] by decide] at answer
  obtain ⟨opened, -⟩ := steepPass_shared [] (by decide +kernel) (by decide +kernel)
  obtain ⟨again, -⟩ := steepPass_shared shared (by decide +kernel) (by decide +kernel)
  have first := Except.ok.inj (passes.first.symm.trans (answers Stakes.Placed.nil))
  have next : ∀ k, (found k).stakes = shared → found (k + 1) = steepPass shared := by
    intro k same
    have search := passes.next k
    rw [same, show Stakes.merge [] shared = shared from Stakes.ofPairs_distinct (by decide)] at search
    exact Except.ok.inj (search.symm.trans (answers ⟨by decide, by decide⟩))
  refine ⟨first, ?_⟩
  intro k
  induction k with
  | zero =>
    have stakes : (found 0).stakes = shared := by rw [first, opened]
    exact ⟨stakes, next 0 stakes⟩
  | succ k ih =>
    have stakes : (found (k + 1)).stakes = shared := by rw [ih.2, again]
    exact ⟨stakes, next (k + 1) stakes⟩

-- Of two passes the first finds the same two bets at another price, so it is the last, and its price is
-- not the one that the plan states.
theorem planObserved?_stops_steep :
    ∃ round full more, planObserved? 0 steep.observed frugal.drafted = .ok round ∧
      planBy? Planner.exhaust? 0 steep.observed frugal.drafted = .ok full ∧
      full.plan.bets = round.plan.bets ∧ full.plan.expected = round.plan.expected ∧
      round.plan.price = 862222222222222228 ∧ full.plan.price = 884486666666666672 ∧
      planObserved? 0 steep.observed (Strategy.drafted { frugal with passes := 9 }) = .ok more ∧
      more.plan = round.plan := by
  have seen : steep.observed.check? 0 = .ok steep := Board.Valid.check?_observed (by decide)
  have drafted : frugal.drafted.check? 0 = .ok frugal := Strategy.Valid.check?_drafted (by decide)
  have screen : Screen.kept? steep frugal = .ok [0, 1] := by decide +kernel
  obtain ⟨round, full, t, u, base, staked, found, m, run, course, all, exhausted, priced, funding, staking,
    passes, -, last, halts, -, used, bets, expected, -, alike⟩ :=
    planObserved?_stops seen drafted (by decide) screen (by decide)
  cases priced.symm.trans (Model.bare?_ok frugal (show steep.Valid by decide))
  cases staking.symm.trans (show _ = Except.ok [0, 1] by decide +kernel)
  have funded : t.funded = [] := Except.ok.inj (funding.symm.trans (by decide +kernel))
  rw [funded] at passes
  obtain ⟨first, later⟩ := steep_found passes
  have none : m = 0 := by
    apply Nat.eq_zero_of_not_pos
    intro some
    exact halts.moved 0 some ((later 1).1.trans (later 0).1.symm)
  subst none
  obtain ⟨more, rerun, same⟩ := alike (by decide) 9 (by decide)
  refine ⟨round, full, more, run, all, bets, expected, ?_, ?_, rerun, same⟩
  · have price : round.plan.price = t.chosen.price := by rw [Round.plan, course]; rfl
    rw [price, used, first, steepPass_price (by decide +kernel)]
    decide +kernel
  · have price : full.plan.price = u.chosen.price := by rw [Round.plan, exhausted]; rfl
    have all : found frugal.passes.toNat = steepPass shared := (later 1).2
    rw [price, last, all, steepPass_price (by decide +kernel)]
    decide +kernel

end Parimutuel
