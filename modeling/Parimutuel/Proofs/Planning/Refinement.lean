import Mathlib.Logic.Function.Iterate
import Parimutuel.Proofs.Planning.Gain
import Parimutuel.Proofs.Pricing.Ascent
import Parimutuel.Proofs.Search.Bankroll

namespace Parimutuel

theorem Stakes.total_lt {s t : Stakes} (left : s.Placed) (right : t.Placed)
    (order : ∀ i, s.amount i ≤ t.amount i) {i : Int} (inside : i ∈ options)
    (more : s.amount i < t.amount i) : s.total < t.total := by
  rw [total_eq_sum left, total_eq_sum right]
  exact Finset.sum_lt_sum (fun j _ => order j) ⟨i, mem_grid.2 inside, more⟩

namespace Planner

section Passes

variable {search : Stakes → Solution} {funded : Stakes} {last k : Nat}

def pass (search : Stakes → Solution) (funded : Stakes) (current : Solution) : Solution :=
  search (funded.merge current.stakes)

def passed (search : Stakes → Solution) (funded : Stakes) (k : Nat) : Solution :=
  (pass search funded)^[k] (search funded)

theorem passed_succ (search : Stakes → Solution) (funded : Stakes) (k : Nat) :
    passed search funded (k + 1) = search (funded.merge (passed search funded k).stakes) :=
  Function.iterate_succ_apply' (pass search funded) k (search funded)

theorem passed_stays (same : (passed search funded (last + 1)).stakes = (passed search funded last).stakes)
    (later : last ≤ k) : (passed search funded k).stakes = (passed search funded last).stakes := by
  induction k, later using Nat.le_induction with
  | base => rfl
  | succ k _ ih => rw [passed_succ, ih, ← passed_succ search funded last, same]

theorem passed_search (search : Stakes → Solution) (funded : Stakes) (k : Nat) :
    ∃ held, passed search funded k = search held := by
  cases k with
  | zero => exact ⟨funded, rfl⟩
  | succ k => exact ⟨_, passed_succ search funded k⟩

theorem refined_passed (search : Stakes → Solution) (funded : Stakes) (n k : Nat) :
    (refined search funded n (passed search funded k)).1.stakes =
      (passed search funded (k + n)).stakes := by
  induction n generalizing k with
  | zero => rfl
  | succ n ih =>
    rw [refined, ← passed_succ search funded k]
    by_cases same : (passed search funded (k + 1)).stakes = (passed search funded k).stakes
    · rw [if_pos same]
      exact (passed_stays same (Nat.le_add_right k (n + 1))).symm
    · rw [if_neg same, ih, Nat.add_assoc, Nat.add_comm 1 n]

end Passes

theorem searched_stakes (base : Model) (candidates : List Int) (s : Strategy) (funded : Stakes) :
    (searched base candidates s funded).1.stakes =
      (passed (search base candidates (terms s (s.bankroll - funded.total))) funded
        s.passes.toNat).stakes := by
  have whole := refined_passed (search base candidates (terms s (s.bankroll - funded.total))) funded
    s.passes.toNat 0
  rwa [Nat.zero_add] at whole

structure Unbound (base : Model) (candidates : List Int) (t : Terms) : Prop where
  sound : base.Sound
  known : ∀ i ∈ candidates, i ∈ options
  cap : 1 ≤ t.cap
  enough : t.cap * (staked base candidates).length ≤ t.bankroll

section Unbound

variable {base : Model} {candidates : List Int} {t : Terms} {held more : Stakes}

structure Granted (m : Model) (cap : Int) (staked : List Int) (r : Solution) : Prop where
  price : r.price = 0
  converged : r.converged = true
  iterations : r.iterations = 0
  stakes : ∀ i, r.stakes.amount i = if i ∈ staked then ShadowPrice.wish m cap 0 i else 0

namespace Unbound

theorem search_granted (unbound : Unbound base candidates t) (held : Stakes) :
    Granted (base.against held) t.cap (staked base candidates) (search base candidates t held) := by
  by_cases nobody : staked base candidates = []
  · rw [search, nobody, ShadowPrice.solution_nobody]
    exact ⟨rfl, rfl, rfl, fun i => (if_neg List.not_mem_nil).symm⟩
  · have cap : 0 ≤ t.cap := Int.le_trans Int.one_nonneg unbound.cap
    have count : 1 ≤ ((staked base candidates).length : Int) :=
      Int.ofNat_le.2 (List.length_pos_iff.2 nobody)
    have bankroll : 0 < t.bankroll := by
      have least := Int.mul_le_mul_of_nonneg_left count cap
      have positive := unbound.cap
      have enough := unbound.enough
      omega
    have enough := Int.le_trans (ShadowPrice.spending_le (base.against held) cap _ 0) unbound.enough
    have granted : search base candidates t held = _ :=
      ShadowPrice.solution_enough nobody bankroll enough
    rw [granted]
    refine ⟨rfl, rfl, rfl, ?_⟩
    intro i
    have taken := ShadowPrice.solution_taken (unbound.sound.against held) (staked_known unbound.known) cap
      nobody bankroll
    rw [← granted]
    by_cases member : i ∈ staked base candidates
    · have amount : (search base candidates t held).stakes.amount i = _ :=
        ShadowPrice.taken_amount cap taken member
      have price : (search base candidates t held).price = 0 := congrArg Solution.price granted
      rw [amount, price, if_pos member]
    · rw [if_neg member]
      exact Stakes.amount_of_not_mem fun named => member (search_numbers i named)

theorem search_le (unbound : Unbound base candidates t) (held : Stakes) (i : Int) :
    (search base candidates t held).stakes.amount i ≤ t.cap := by
  rw [(unbound.search_granted held).stakes]
  split
  · exact ShadowPrice.wish_le _ _ _ _
  · exact Int.le_trans Int.one_nonneg unbound.cap

-- What is held on an option makes every other one worth more, so nobody's wish shrinks.
theorem search_mono (unbound : Unbound base candidates t)
    (order : ∀ j ∈ options, held.amount j ≤ more.amount j) (i : Int) :
    (search base candidates t held).stakes.amount i ≤ (search base candidates t more).stakes.amount i := by
  rw [(unbound.search_granted held).stakes, (unbound.search_granted more).stakes]
  by_cases member : i ∈ staked base candidates
  · have known := staked_known unbound.known i member
    have below : ((base.against held).quoteAt i).Below ((base.against more).quoteAt i) := by
      apply Model.quoteAt_below (unbound.sound.against held) (unbound.sound.against more) rfl rfl known
      intro j inside
      have option := mem_grid.1 (Finset.mem_of_mem_erase inside)
      have own : ∀ u : Stakes, Model.ownAt (base.against u).holdings j = max 0 (u.amount j) := fun u =>
        u.ownAt_holdings option
      have grown := order j option
      rw [own, own]
      omega
    obtain ⟨taken, prize, _⟩ := (unbound.sound.against held).quoteAt_nonneg known
    have peak := below.peak taken prize 0
    rw [if_pos member, if_pos member, ShadowPrice.wish, ShadowPrice.wish]
    omega
  · rw [if_neg member, if_neg member]

end Unbound

section Ascent

variable {funded : Stakes}

theorem passed_placed (base : Model) (known : ∀ i ∈ candidates, i ∈ options) (t : Terms)
    (funded : Stakes) (k : Nat) : (passed (search base candidates t) funded k).stakes.Placed := by
  obtain ⟨held, same⟩ := passed_search (search base candidates t) funded k
  rw [same]
  exact search_placed known

theorem passed_numbers (base : Model) (candidates : List Int) (t : Terms) (funded : Stakes) (k : Nat) :
    (passed (search base candidates t) funded k).stakes.numbers.Pairwise (· < ·) := by
  obtain ⟨held, same⟩ := passed_search (search base candidates t) funded k
  rw [same]
  exact ShadowPrice.solution_numbers _ _ t

theorem passed_positive (base : Model) (candidates : List Int) (t : Terms) (funded : Stakes) (k : Nat) :
    ∀ p ∈ (passed (search base candidates t) funded k).stakes, 0 < p.2 := by
  obtain ⟨held, same⟩ := passed_search (search base candidates t) funded k
  rw [same]
  exact fun p member => (ShadowPrice.solution_mem member).2.1

theorem passed_nonneg (base : Model) (candidates : List Int) (t : Terms) (funded : Stakes) (k : Nat)
    (i : Int) : 0 ≤ (passed (search base candidates t) funded k).stakes.amount i :=
  Stakes.amount_nonneg (fun p member => Int.le_of_lt (passed_positive base candidates t funded k p member)) i

theorem passed_merged (known : ∀ i ∈ candidates, i ∈ options) (placed : funded.Placed)
    (apart : ∀ i ∈ funded.numbers, i ∉ staked base candidates) (k : Nat) (i : Int) :
    (funded.merge (passed (search base candidates t) funded k).stakes).amount i =
      funded.amount i + (passed (search base candidates t) funded k).stakes.amount i := by
  have found := passed_placed base known t funded k
  obtain ⟨held, same⟩ := passed_search (search base candidates t) funded k
  apply Stakes.amount_merge placed found
  rw [same]
  exact fun j one other => apart j one (search_numbers j other)

variable (unbound : Unbound base candidates t) (placed : funded.Placed)
  (apart : ∀ i ∈ funded.numbers, i ∉ staked base candidates)

include unbound placed apart

theorem passed_ascends (k : Nat) (i : Int) :
    (passed (search base candidates t) funded k).stakes.amount i ≤
      (passed (search base candidates t) funded (k + 1)).stakes.amount i := by
  have merged := passed_merged (t := t) unbound.known placed apart
  induction k generalizing i with
  | zero =>
    rw [passed_succ]
    apply unbound.search_mono
    intro j _
    have least := passed_nonneg base candidates t funded 0 j
    rw [merged]
    omega
  | succ k ih =>
    rw [passed_succ _ _ k, passed_succ _ _ (k + 1)]
    apply unbound.search_mono
    intro j _
    rw [merged, merged]
    exact Int.add_le_add_left (ih j) _

theorem passed_total (k : Nat) (moved : (passed (search base candidates t) funded (k + 1)).stakes ≠
      (passed (search base candidates t) funded k).stakes) :
    (passed (search base candidates t) funded k).stakes.total + 1 ≤
      (passed (search base candidates t) funded (k + 1)).stakes.total := by
  have ascends := passed_ascends unbound placed apart k
  have left := passed_placed base unbound.known t funded k
  have right := passed_placed base unbound.known t funded (k + 1)
  have grown : ∃ i, (passed (search base candidates t) funded k).stakes.amount i ≠
      (passed (search base candidates t) funded (k + 1)).stakes.amount i := by
    apply not_forall.1
    intro same
    exact moved (Stakes.eq_of_amount (passed_numbers _ _ _ _ k) (passed_numbers _ _ _ _ (k + 1))
      (passed_positive _ _ _ _ k) (passed_positive _ _ _ _ (k + 1)) same).symm
  obtain ⟨i, differs⟩ := grown
  have more := lt_of_le_of_ne (ascends i) differs
  have staked : (passed (search base candidates t) funded (k + 1)).stakes.amount i ≠ 0 := by
    have least := passed_nonneg base candidates t funded k i
    omega
  have known := right.known i (Stakes.numbers_of_mem (Stakes.mem_of_amount staked))
  exact Stakes.total_lt left right ascends known more

theorem passed_settles : ∃ last : Nat, (last : Int) ≤ t.cap * (staked base candidates).length ∧
    ∀ k, last ≤ k → (passed (search base candidates t) funded k).stakes =
      (passed (search base candidates t) funded last).stakes := by
  have cap : 0 ≤ t.cap := Int.le_trans Int.one_nonneg unbound.cap
  have most : ∀ k, (passed (search base candidates t) funded k).stakes.total ≤
      t.cap * (staked base candidates).length := by
    intro k
    obtain ⟨held, same⟩ := passed_search (search base candidates t) funded k
    rw [same]
    exact ShadowPrice.solution_total_le _ cap _
  -- until a pass changes nothing, each hands out a unit more
  have restless : ∀ n : Nat, (∃ last < n, (passed (search base candidates t) funded (last + 1)).stakes =
      (passed (search base candidates t) funded last).stakes) ∨
        (n : Int) ≤ (passed (search base candidates t) funded n).stakes.total := by
    intro n
    induction n with
    | zero =>
      right
      rw [Stakes.total_eq_sum (passed_placed base unbound.known t funded 0)]
      exact Finset.sum_nonneg fun i _ => passed_nonneg base candidates t funded 0 i
    | succ n ih =>
      rcases ih with ⟨last, before, same⟩ | tall
      · exact .inl ⟨last, Nat.lt_succ_of_lt before, same⟩
      · by_cases same : (passed (search base candidates t) funded (n + 1)).stakes =
            (passed (search base candidates t) funded n).stakes
        · exact .inl ⟨n, Nat.lt_succ_self n, same⟩
        · have moved := passed_total unbound placed apart n same
          right
          omega
  have room : 0 ≤ t.cap * (staked base candidates).length := Int.mul_nonneg cap (Int.natCast_nonneg _)
  have bound := most ((t.cap * (staked base candidates).length).toNat + 1)
  rcases restless ((t.cap * (staked base candidates).length).toNat + 1) with ⟨last, before, same⟩ | tall
  · exact ⟨last, by omega, fun k later => passed_stays same later⟩
  · omega

end Ascent

end Unbound

end Planner

variable {board : Board} {s : Strategy} {t t' : Trace} {p q : Int}

namespace Planner

-- On a board: the bets ahead of the search, what is left for it, and what it finds after `k` passes.
def ahead (board : Board) (s : Strategy) : Stakes :=
  fundFlat (Model.bare board s) (Screen.screened board s) s

def remaining (board : Board) (s : Strategy) : Terms := terms s (s.bankroll - (ahead board s).total)

def sought (board : Board) (s : Strategy) (k : Nat) : Solution :=
  passed (search (Model.bare board s) (Screen.screened board s) (remaining board s)) (ahead board s) k

theorem ahead_placed (board : Board) (s : Strategy) : (ahead board s).Placed :=
  fundFlat_placed (Screen.screened_distinct board s) (Screen.screened_known board s) s

theorem ahead_apart (board : Board) (s : Strategy) : ∀ i ∈ (ahead board s).numbers,
    i ∉ staked (Model.bare board s) (Screen.screened board s) := fun i member =>
  flat_apart (fundFlat_numbers _ _ s i member)

end Planner

namespace Trace.Sound

-- The number of passes is looked at by nothing but the passes themselves.
theorem chosen_sought (sound : t.Sound board { s with passes := p }) :
    t.funded = Planner.ahead board s ∧
      (∃ held, t.chosen = Planner.search (Model.bare board s) (Screen.screened board s)
        (Planner.remaining board s) held) ∧
      t.chosen.stakes = (Planner.sought board s p.toNat).stakes := by
  have candidates : t.candidates = Screen.screened board s := sound.candidates
  have funded : t.funded = Planner.ahead board s := by
    rw [sound.funded, candidates]
    rfl
  obtain ⟨held, same⟩ := sound.found
  have stakes := Planner.searched_stakes (Model.bare board { s with passes := p }) t.candidates
    { s with passes := p } t.funded
  rw [← sound.chosen, candidates, funded] at stakes
  rw [sound.budget, candidates, funded] at same
  exact ⟨funded, ⟨held, same⟩, stakes⟩

section Passes

variable (sound : t.Sound board { s with passes := p }) (more : t'.Sound board { s with passes := q })

include sound more

theorem snapped_passes (found : t'.chosen.stakes = t.chosen.stakes) :
    t'.snapped.stakes = t.snapped.stakes := by
  have kept := more.kept
  rw [found, more.chosen_sought.1, ← sound.chosen_sought.1] at kept
  have left : t'.snapped.stakes ⊆ t.snapped.stakes := sound.kept.greatest _ kept.inside.subset kept.pays
  have right : t.snapped.stakes ⊆ t'.snapped.stakes :=
    kept.greatest _ sound.kept.inside.subset sound.kept.pays
  exact Stakes.eq_of_subset (more.kept.ascending more.drafted_placed)
    (sound.kept.ascending sound.drafted_placed) left right

theorem plan_passes (found : t'.chosen.stakes = t.chosen.stakes)
    (price : t'.chosen.price = t.chosen.price) (converged : t'.chosen.converged = t.chosen.converged)
    (iterations : t'.chosen.iterations = t.chosen.iterations) (bankroll : Int) :
    t'.plan bankroll = t.plan bankroll := by
  have stakes := sound.snapped_passes more found
  have bets : t'.bets = t.bets := by rw [sound.bets, more.bets, stakes]
  have expected : t'.expected = t.expected := by
    rw [sound.expected, more.expected, sound.kept.model, more.kept.model, stakes]
    rfl
  rw [Trace.plan, Trace.plan, bets, expected, price, converged, iterations]

end Passes

end Trace.Sound

-- Rounds that differ in the passes alone have the same plan once both made the last pass that changes
-- anything.
theorem Course.Planned.plan_passes {last : Nat} {less more : Round}
    (unbound : Planner.Unbound (Model.bare board s) (Screen.screened board s) (Planner.remaining board s))
    (settled : ∀ k, last ≤ k → (Planner.sought board s k).stakes = (Planner.sought board s last).stakes)
    (first : last ≤ p) (second : last ≤ q)
    (same : less.strategy = { s with passes := p })
    (planned : Planned board { s with passes := p } less.course)
    (same' : more.strategy = { s with passes := q })
    (planned' : Planned board { s with passes := q } more.course) : less.plan = more.plan := by
  cases due : Planner.idle? board s with
  | some reason => rw [planned.plan_idle same due, planned'.plan_idle same' due]
  | none =>
    by_cases nobody : Screen.screened board s = []
    · rw [planned.plan_hopeless same due nobody, planned'.plan_hopeless same' due nobody]
    · obtain ⟨t, sound, full⟩ := planned.plan_full same due nobody
      obtain ⟨t', more, full'⟩ := planned'.plan_full same' due nobody
      obtain ⟨_, ⟨held, found⟩, stakes⟩ := sound.chosen_sought
      obtain ⟨_, ⟨held', found'⟩, stakes'⟩ := more.chosen_sought
      have granted := unbound.search_granted held
      have granted' := unbound.search_granted held'
      rw [← found] at granted
      rw [← found'] at granted'
      rw [settled p.toNat (by omega)] at stakes
      rw [settled q.toNat (by omega)] at stakes'
      rw [full, full']
      exact (sound.plan_passes more (stakes'.trans stakes.symm) (granted'.price.trans granted.price.symm)
        (granted'.converged.trans granted.converged.symm)
        (granted'.iterations.trans granted.iterations.symm) s.bankroll).symm

-- `found k` is what the searches find after `k` passes, each priced against what the last one found.
structure Planner.Passes (base : Model) (staked : List Int) (t : Terms) (funded : Stakes)
    (found : Nat → Solution) : Prop where
  first : search? base staked t funded = .ok (found 0)
  next : ∀ k, search? base staked t (funded.merge (found k).stakes) = .ok (found (k + 1))

theorem Planner.sought_passes (valid : board.Valid) (nonneg : 0 ≤ s.unitValue) :
    Passes (Model.bare board s) (staked (Model.bare board s) (Screen.screened board s))
      (remaining board s) (ahead board s) (sought board s) := by
  have base := Model.bare_sound (s := s) valid nonneg
  have known := Screen.screened_known board s
  constructor
  · exact search?_ok base known _ (ahead_placed board s)
  · intro k
    have placed : ((ahead board s).merge (sought board s k).stakes).Placed := by
      obtain ⟨held, same⟩ := passed_search
        (search (Model.bare board s) (Screen.screened board s) (remaining board s)) (ahead board s) k
      rw [sought, same]
      exact merge_search_placed (Screen.screened_distinct board s) known
    rw [search?_ok base known _ placed]
    exact congrArg Except.ok (passed_succ _ _ k).symm

theorem planObserved?_passes {room : Nat} {o : Observation} (seen : o.check? room = .ok board)
    (strategy : s.Valid) {last : Nat}
    (unbound : Planner.Unbound (Model.bare board s) (Screen.screened board s) (Planner.remaining board s))
    (settled : ∀ k, last ≤ k → (Planner.sought board s k).stakes = (Planner.sought board s last).stakes)
    (first : last ≤ p) (second : last ≤ q) :
    ∃ less more, planObserved? room o (Strategy.drafted { s with passes := p }) = .ok less ∧
      planObserved? room o (Strategy.drafted { s with passes := q }) = .ok more ∧ less.plan = more.plan := by
  have fewer : Strategy.Valid { s with passes := p } :=
    { strategy with passes_nonneg := Int.le_trans (Int.natCast_nonneg last) first }
  have further : Strategy.Valid { s with passes := q } :=
    { strategy with passes_nonneg := Int.le_trans (Int.natCast_nonneg last) second }
  obtain ⟨less, run, _, same, planned⟩ := planObserved?_planned seen fewer.check?_drafted
  obtain ⟨more, run', _, same', planned'⟩ := planObserved?_planned seen further.check?_drafted
  exact ⟨less, more, run, run', Course.Planned.plan_passes unbound settled first second same planned same'
    planned'⟩

theorem planObserved?_ascends {room : Nat} {o : Observation} {d : Draft} (seen : o.check? room = .ok board)
    (drafted : d.check? room = .ok s) :
    ∃ (base : Model) (candidates staked : List Int) (funded : Stakes) (found : Nat → Solution),
      Model.bare? board s = .ok base ∧ Screen.kept? board s = .ok candidates ∧
      Planner.fundFlat? base candidates s = .ok funded ∧
      keepWhere? (fun i => do return !(← base.flat? i)) candidates = .ok staked ∧
      Planner.Passes base staked (Planner.terms s (s.bankroll - funded.total)) funded found ∧
      (s.cap * staked.length ≤ s.bankroll - funded.total →
        (∀ k, (found k).price = 0 ∧ (found k).converged = true ∧
          ∀ i, (found k).stakes.amount i ≤ (found (k + 1)).stakes.amount i ∧
            (found (k + 1)).stakes.amount i ≤ s.cap) ∧
        ∃ last : Nat, last ≤ s.cap * staked.length ∧
          (∀ k, last ≤ k → (found k).stakes = (found last).stakes) ∧
          ∀ p q : Int, last ≤ p → last ≤ q → ∃ less more,
            planObserved? room o (Strategy.drafted { s with passes := p }) = .ok less ∧
            planObserved? room o (Strategy.drafted { s with passes := q }) = .ok more ∧
            less.plan = more.plan) := by
  have strategy := (Draft.check?_eq_ok_iff.1 drafted).2
  have valid := (Observation.check?_eq_ok_iff.1 seen).2
  have base := Model.bare_sound (s := s) valid strategy.unitValue_nonneg
  have known := Screen.screened_known board s
  have placed := Planner.ahead_placed board s
  have apart := Planner.ahead_apart board s
  refine ⟨_, _, _, Planner.ahead board s, Planner.sought board s, Model.bare?_ok s valid,
    Screen.kept?_ok valid strategy.unitValue_nonneg, Planner.fundFlat?_ok base known s,
    Planner.staked?_ok base known, Planner.sought_passes valid strategy.unitValue_nonneg, ?_⟩
  intro enough
  have unbound : Planner.Unbound (Model.bare board s) (Screen.screened board s)
      (Planner.remaining board s) := ⟨base, known, strategy.cap_pos, enough⟩
  constructor
  · intro k
    obtain ⟨held, same⟩ := Planner.passed_search (Planner.search (Model.bare board s)
      (Screen.screened board s) (Planner.remaining board s)) (Planner.ahead board s) k
    have granted := unbound.search_granted held
    rw [← same] at granted
    refine ⟨granted.price, granted.converged, fun i => ⟨?_, ?_⟩⟩
    · exact Planner.passed_ascends unbound placed apart k i
    · rw [Planner.sought, Planner.passed_succ]
      exact unbound.search_le _ i
  · obtain ⟨last, bound, settled⟩ := Planner.passed_settles unbound placed apart
    exact ⟨last, bound, settled, fun p q first second =>
      planObserved?_passes seen strategy unbound settled first second⟩

-- A bankroll of 10000 covers a cap of 200 on each of the twenty-five options.
theorem planObserved?_ascends_crowded :
    ∃ found : Nat → Solution,
      (∀ k, (found k).price = 0 ∧ (found k).converged = true ∧
        ∀ i, (found k).stakes.amount i ≤ (found (k + 1)).stakes.amount i ∧
          (found (k + 1)).stakes.amount i ≤ 200) ∧
      (∃ last : Nat, last ≤ 5000 ∧ ∀ k, last ≤ k → (found k).stakes = (found last).stakes) ∧
      ∃ less more,
        planObserved? 0 crowded.observed (Strategy.drafted { hopeful with passes := 5000 }) = .ok less ∧
        planObserved? 0 crowded.observed (Strategy.drafted { hopeful with passes := 6000 }) = .ok more ∧
        less.plan = more.plan := by
  have seen : crowded.observed.check? 0 = .ok crowded := Board.Valid.check?_observed (by decide)
  have drafted : hopeful.drafted.check? 0 = .ok hopeful := Strategy.Valid.check?_drafted (by decide)
  obtain ⟨base, candidates, staked, funded, found, priced, kept, flat, searched, _, ascends⟩ :=
    planObserved?_ascends seen drafted
  cases priced.symm.trans (Model.bare?_ok hopeful (show crowded.Valid by decide))
  cases kept.symm.trans (show Screen.kept? crowded hopeful = .ok options by decide +kernel)
  cases flat.symm.trans (show Planner.fundFlat? (Model.bare crowded hopeful) options hopeful = .ok [] by
    decide +kernel)
  cases searched.symm.trans (show _ = Except.ok options by decide +kernel)
  obtain ⟨free, last, bound, settled, alike⟩ := ascends (by decide)
  have most : (last : Int) ≤ 5000 := bound
  exact ⟨found, free, ⟨last, Int.ofNat_le.1 most, settled⟩, alike 5000 6000 most (by omega)⟩

end Parimutuel
