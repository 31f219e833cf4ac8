import Parimutuel.Proofs.Planning.Promises
import Parimutuel.Proofs.Snap.Renumbered

namespace Parimutuel

open Model (takenAt)

def Bet.renumber (σ : Renumbering) (b : Bet) : Bet := ⟨σ b.option, b.stake⟩

def Plan.renumber (σ : Renumbering) (p : Plan) : Plan :=
  { p with bets := (p.bets.map (Bet.renumber σ)).mergeSort fun a b => decide (a.option ≤ b.option) }

variable {σ : Renumbering} {board board' : Board} {s : Strategy} {t t' : Trace}

theorem Renumbering.Lists.filter {a b : List Int} {p q : Int → Bool} (lists : σ.Lists a b)
    (same : ∀ i ∈ a, q (σ i) = p i) : σ.Lists (a.filter p) (b.filter q) := by
  intro i
  rw [List.mem_filter, List.mem_filter, lists i]
  apply and_congr_right
  intro member
  rw [same i member]

theorem Screen.screened_renumbered (moved : σ.Moves board board') (valid : board.Valid)
    (valid' : board'.Valid) (s : Strategy) : σ.Lists (screened board s) (screened board' s) := by
  have quotes := moved.bare valid valid' s
  apply Renumbering.Lists.filter σ.inside
  intro i member
  rw [promising, promising, quotes i member]

theorem Planner.idle_renumbered (moved : σ.Moves board board') : idle? board' s = idle? board s := by
  rw [idle?, idle?, moved.remaining, moved.isOpen]

namespace Planner

variable {base base' : Model} {a b : List Int}

theorem flat_renumbered (quotes : σ.Requotes base base') (lists : σ.Lists a b)
    (known : ∀ i ∈ a, i ∈ options) : σ.Lists (flat base a) (flat base' b) :=
  lists.filter fun i member => by rw [quotes i (known i member)]

theorem staked_renumbered (quotes : σ.Requotes base base') (lists : σ.Lists a b)
    (known : ∀ i ∈ a, i ∈ options) : σ.Lists (staked base a) (staked base' b) :=
  lists.filter fun i member => by rw [quotes i (known i member)]

theorem fund_enough {minBet budget : Int} {row : List Int} (least : 0 ≤ minBet)
    (enough : minBet * row.length ≤ budget) : fund minBet budget row = row.map fun i => (i, minBet) := by
  induction row generalizing budget with
  | nil => rfl
  | cons i rest ih =>
    have others : 0 ≤ minBet * rest.length := Int.mul_nonneg least (Int.natCast_nonneg _)
    rw [List.length_cons, Int.natCast_add, Int.mul_add] at enough
    rw [fund, if_neg (by omega), ih (by omega), List.map_cons]

theorem fundFlat_enough (least : 0 ≤ s.minBet)
    (enough : s.minBet * (flat base a).length ≤ s.bankroll) :
    (fundFlat base a s).Perm ((flat base a).map fun i => (i, s.minBet)) := by
  have rank := ranked_perm ((flat base a).map fun i => (i, (base.quoteAt i).value s.minBet))
  rw [List.map_map, show Prod.fst ∘ (fun i => (i, (base.quoteAt i).value s.minBet)) = id from rfl,
    List.map_id] at rank
  rw [← rank.length_eq] at enough
  rw [fundFlat, fund_enough least enough]
  exact rank.map _

theorem fundFlat_renumbered (quotes : σ.Requotes base base') (lists : σ.Lists a b)
    (known : ∀ i ∈ a, i ∈ options) (left : a.Nodup) (right : b.Nodup) (least : 0 ≤ s.minBet)
    (enough : s.minBet * (flat base a).length ≤ s.bankroll) :
    (fundFlat base' b s).Perm ((fundFlat base a s).renumber σ) := by
  have perm := (flat_renumbered quotes lists known).perm (left.filter _) (right.filter _)
  have length : (flat base' b).length = (flat base a).length := by
    rw [perm.length_eq, List.length_map]
  have enough' : s.minBet * (flat base' b).length ≤ s.bankroll := by rwa [length]
  have first := fundFlat_enough least enough'
  have second := (fundFlat_enough least enough).map fun p : Int × Int => (σ p.1, p.2)
  rw [List.map_map] at second
  have between := perm.map fun i => (i, s.minBet)
  rw [List.map_map] at between
  exact first.trans (between.trans second.symm)

theorem refined_renumbered {search search' : Stakes → Solution} {funded funded' : Stakes}
    (step : ∀ held, search' (funded'.merge ((search held).renumber σ).stakes) =
      (search (funded.merge (search held).stakes)).renumber σ)
    (faithful : ∀ held other, ((search held).renumber σ).stakes = ((search other).renumber σ).stakes ↔
      (search held).stakes = (search other).stakes) (n : Nat) (held : Stakes) :
    (refined search' funded' n ((search held).renumber σ)).1 =
      (refined search funded n (search held)).1.renumber σ := by
  induction n generalizing held with
  | zero => rfl
  | succ n ih =>
    have same := faithful (funded.merge (search held).stakes) held
    simp only [refined, step held, same]
    split
    · rfl
    · exact ih (funded.merge (search held).stakes)

theorem search_renumbered (moved : σ.Moves board board') (valid : board.Valid) (valid' : board'.Valid)
    (lists : σ.Lists a b) (known : ∀ i ∈ a, i ∈ options) (t : Terms) {held held' : Stakes}
    (distinct : held.numbers.Nodup) (perm : held'.Perm (held.renumber σ)) :
    search (Model.bare board' s) b t held' = (search (Model.bare board s) a t held).renumber σ := by
  have quotes := moved.against valid valid' s distinct perm
  have staked := staked_renumbered (moved.bare valid valid' s) lists known
  exact ShadowPrice.solution_renumbered quotes staked (staked_known known) t

theorem merge_renumbered {funded funded' found : Stakes} (left : funded.Placed) (right : found.Placed)
    (apart : ∀ i ∈ funded.numbers, i ∉ found.numbers) (perm : funded'.Perm (funded.renumber σ)) :
    (funded'.merge (Stakes.sorted (found.renumber σ))).Perm ((funded.merge found).renumber σ) := by
  have both : (funded' ++ Stakes.sorted (found.renumber σ)).Perm ((funded ++ found).renumber σ) := by
    rw [Stakes.renumber_append]
    exact perm.append (Stakes.sorted_perm _)
  have fresh := ((left.append right apart).renumber σ).perm both.symm
  rw [left.merge right apart, Stakes.merge_fresh fresh.distinct]
  exact both

theorem searched_renumbered (moved : σ.Moves board board') (valid : board.Valid)
    (valid' : board'.Valid) (lists : σ.Lists a b) (known : ∀ i ∈ a, i ∈ options) (left : a.Nodup)
    {funded funded' : Stakes} (same : funded = fundFlat (Model.bare board s) a s)
    (perm : funded'.Perm (funded.renumber σ)) :
    (searched (Model.bare board' s) b s funded').1 =
      (searched (Model.bare board s) a s funded).1.renumber σ := by
  have placed : funded.Placed := same ▸ fundFlat_placed left known s
  have budget : s.bankroll - funded'.total = s.bankroll - funded.total := by
    rw [Stakes.total_perm perm, Stakes.total_renumber]
  generalize search : search (Model.bare board s) a (terms s (s.bankroll - funded.total)) = before
  have step : ∀ held held' : Stakes, held.numbers.Nodup → held'.Perm (held.renumber σ) →
      Planner.search (Model.bare board' s) b (terms s (s.bankroll - funded.total)) held' =
        (before held).renumber σ := by
    intro held held' distinct moving
    rw [← search]
    exact search_renumbered moved valid valid' lists known _ distinct moving
  rw [searched, searched, budget, search, step funded funded' placed.distinct perm]
  apply refined_renumbered
  · intro held
    have found : (before held).stakes.Placed :=
      search ▸ ShadowPrice.solution_placed _ (staked_known known)
    have apart : ∀ i ∈ funded.numbers, i ∉ (before held).stakes.numbers := by
      intro i one other
      rw [← search] at other
      exact flat_apart (fundFlat_numbers _ _ s i (same ▸ one)) (search_numbers i other)
    have distinct := Stakes.merge_nodup (before held).stakes funded placed.distinct
    exact step _ _ distinct (merge_renumbered placed found apart perm)
  · intro held other
    rw [← search]
    exact ShadowPrice.renumber_stakes_inj

end Planner

-- The money reaches for a smallest bet on each candidate that nobody staked.
def Strategy.Reaches (s : Strategy) (board : Board) (candidates : List Int) : Prop :=
  s.minBet * (Planner.flat (Model.bare board s) candidates).length ≤ s.bankroll

namespace Trace.Sound

variable (sound : t.Sound board s) (sound' : t'.Sound board' s) (moved : σ.Moves board board')
  (valid : board.Valid) (valid' : board'.Valid) (strategy : s.Valid) (reaches : s.Reaches board t.candidates)

include sound sound' moved valid valid' strategy reaches

theorem funded_renumbered : t'.funded.Perm (t.funded.renumber σ) := by
  have lists := Screen.screened_renumbered moved valid valid' s
  have known := Screen.screened_known board s
  rw [sound.candidates] at reaches
  rw [sound.funded, sound'.funded, sound.candidates, sound'.candidates]
  exact Planner.fundFlat_renumbered (moved.bare valid valid' s) lists known
    (Screen.screened_distinct board s) (Screen.screened_distinct board' s)
    (Int.le_of_lt strategy.minBet_pos) reaches

theorem chosen_renumbered : t'.chosen = t.chosen.renumber σ := by
  have perm := sound.funded_renumbered sound' moved valid valid' strategy reaches
  have lists := Screen.screened_renumbered moved valid valid' s
  have funded := sound.funded
  rw [sound.chosen, sound'.chosen, sound'.candidates]
  rw [sound.candidates] at funded ⊢
  exact Planner.searched_renumbered moved valid valid' lists (Screen.screened_known board s)
    (Screen.screened_distinct board s) funded perm

theorem snapped_renumbered :
    t'.snapped.stakes = Stakes.sorted (t.snapped.stakes.renumber σ) := by
  have funded := sound.funded_renumbered sound' moved valid valid' strategy reaches
  have chosen := sound.chosen_renumbered sound' moved valid valid' strategy reaches
  have searched : t'.chosen.stakes.Perm (t.chosen.stakes.renumber σ) := by
    rw [chosen]
    exact Stakes.sorted_perm _
  have drafted : (Stakes.sorted (t'.chosen.stakes ++ t'.funded)).Perm
      ((Stakes.sorted (t.chosen.stakes ++ t.funded)).renumber σ) := by
    have both := searched.append funded
    rw [← Stakes.renumber_append] at both
    exact (Stakes.sorted_perm _).trans (both.trans ((Stakes.sorted_perm _).symm.map _))
  have placed := Snap.trimmed_placed s (sound.drafted_placed.perm (Stakes.sorted_perm _).symm)
  have kept := sound.kept.renumbered moved valid valid' placed (Snap.trimmed_renumbered s drafted)
    sound'.kept
  have ascending := sound'.kept.ascending sound'.drafted_placed
  rw [← Stakes.sorted_of_numbers ascending]
  exact Stakes.sorted_eq_of_perm (Stakes.renumber_distinct σ sound.snapped_placed.distinct) kept

theorem expected_renumbered : t'.expected = t.expected := by
  have stakes := sound.snapped_renumbered sound' moved valid valid' strategy reaches
  have perm : t'.snapped.stakes.Perm (t.snapped.stakes.renumber σ) := stakes ▸ Stakes.sorted_perm _
  have quotes := moved.against valid valid' s sound.snapped_placed.distinct perm
  rw [sound.expected, sound'.expected, sound.kept.model, sound'.kept.model,
    sumOf_perm (perm.map _), Stakes.renumber, List.map_map]
  congr 1
  apply List.map_congr_left
  intro p member
  have known := sound.snapped_placed.known p.1 (Stakes.numbers_of_mem member)
  simp only [Function.comp_def, quotes p.1 known]

theorem plan_renumbered (bankroll : Int) : t'.plan bankroll = (t.plan bankroll).renumber σ := by
  have stakes := sound.snapped_renumbered sound' moved valid valid' strategy reaches
  have chosen := sound.chosen_renumbered sound' moved valid valid' strategy reaches
  have expected := sound.expected_renumbered sound' moved valid valid' strategy reaches
  have bets : t'.bets = (t.bets.map (Bet.renumber σ)).mergeSort
      fun a b => decide (a.option ≤ b.option) := by
    have sorted := List.map_mergeSort (r := fun p q : Int × Int => decide (p.1 ≤ q.1))
      (s := fun a b : Bet => decide (a.option ≤ b.option)) (f := fun p => ⟨p.1, p.2⟩)
      (l := t.snapped.stakes.renumber σ) fun p _ q _ => rfl
    rw [sound.bets, sound'.bets, stakes, Stakes.sorted, sorted, List.map_map, Stakes.renumber,
      List.map_map]
    rfl
  have nothing : t'.bets = [] ↔ t.bets = [] := by
    rw [bets, ← List.length_eq_zero_iff, List.length_mergeSort, List.length_map,
      List.length_eq_zero_iff]
  simp only [Trace.plan, Plan.renumber, nothing]
  rw [bets, chosen, expected]
  rfl

end Trace.Sound

theorem Course.Planned.plan_renumbered {round round' : Round} (same : round.strategy = s)
    (same' : round'.strategy = s) (planned : Course.Planned board s round.course)
    (planned' : Course.Planned board' s round'.course) (moved : σ.Moves board board')
    (valid : board.Valid) (valid' : board'.Valid) (strategy : s.Valid)
    (reaches : s.Reaches board (Screen.screened board s)) : round'.plan = round.plan.renumber σ := by
  have idle := Planner.idle_renumbered (s := s) moved
  have nobody := (Screen.screened_renumbered moved valid valid' s).nil_iff
  have empty : ∀ reason, Plan.empty s.bankroll reason = (Plan.empty s.bankroll reason).renumber σ := by
    intro reason
    rw [Plan.renumber, Plan.empty, List.map_nil, List.mergeSort_nil]
  obtain ⟨reason, early⟩ | due : (∃ reason, Planner.idle? board s = some reason) ∨
      Planner.idle? board s = none := by
    cases Planner.idle? board s with
    | none => exact .inr rfl
    | some reason => exact .inl ⟨reason, rfl⟩
  · rw [planned.plan_idle same early, planned'.plan_idle same' (idle.trans early)]
    exact empty reason
  · by_cases none : Screen.screened board s = []
    · rw [planned.plan_hopeless same due none,
        planned'.plan_hopeless same' (idle.trans due) (nobody.2 none)]
      exact empty .noPositiveValue
    · obtain ⟨t, sound, full⟩ := planned.plan_full same due none
      obtain ⟨t', sound', full'⟩ :=
        planned'.plan_full same' (idle.trans due) fun other => none (nobody.1 other)
      rw [full, full']
      rw [← sound.candidates] at reaches
      exact sound.plan_renumbered sound' moved valid valid' strategy reaches s.bankroll

-- Of what the screen left, no more is without stakes than on the whole board.
theorem Board.Valid.reaches (valid : board.Valid) (strategy : s.Valid)
    (enough : (∀ i ∈ Screen.screened board s, takenAt board i ≠ 0) ∨
      s.minBet * board.stakes.count 0 ≤ s.bankroll) : s.Reaches board (Screen.screened board s) := by
  have least := strategy.minBet_pos
  unfold Strategy.Reaches
  rcases enough with everybody | money
  · have nobody : Planner.flat (Model.bare board s) (Screen.screened board s) = [] := by
      apply List.filter_eq_nil_iff.2
      intro i member unstaked
      exact everybody i member (eq_of_beq unstaked)
    have funds := strategy.bankroll_nonneg
    rw [nobody, List.length_nil]
    omega
  · have unstaked : board.stakes.count 0 = (options.filter fun i => takenAt board i == 0).length := by
      rw [← List.countP_eq_length_filter, ← map_getD_options valid.stakes_length, List.count_eq_countP,
        List.countP_map]
      rfl
    have fewer := ((Screen.screened_sublist board s).filter fun i => takenAt board i == 0).length_le
    rw [← unstaked] at fewer
    exact Int.le_trans (Int.mul_le_mul_of_nonneg_left (Int.ofNat_le.2 fewer) (Int.le_of_lt least)) money

theorem Plan.amount_renumber {p : Plan} (distinct : (p.bets.map Bet.option).Nodup)
    (fixed : p = p.renumber σ) (i : Int) : p.stakes.amount (σ i) = p.stakes.amount i := by
  have pairs : p.stakes = p.bets.map fun b => (b.option, b.stake) := by
    apply Stakes.ofPairs_distinct
    rw [Stakes.numbers, List.map_map]
    exact distinct
  have moved : p.bets.Perm (p.bets.map (Bet.renumber σ)) := by
    have sorted : p.bets = (p.bets.map (Bet.renumber σ)).mergeSort
        fun a b => decide (a.option ≤ b.option) := congrArg Plan.bets fixed
    have perm := List.mergeSort_perm (p.bets.map (Bet.renumber σ)) fun a b =>
      decide (a.option ≤ b.option)
    rwa [← sorted] at perm
  apply Stakes.amount_renumbered
  · rw [pairs, Stakes.numbers, List.map_map]
    exact distinct
  · have perm := moved.map fun b : Bet => (b.option, b.stake)
    rw [List.map_map] at perm
    rw [pairs, Stakes.renumber, List.map_map]
    exact perm

theorem Course.Planned.distinct {round : Round} (same : round.strategy = s)
    (planned : Course.Planned board s round.course) : (round.plan.bets.map Bet.option).Nodup := by
  rcases planned.plan_cases same with ⟨reason, empty⟩ | ⟨t, sound, full⟩
  · rw [empty]
    exact List.nodup_nil
  · have bets : (t.plan s.bankroll).bets = t.snapped.stakes.map fun p => ⟨p.1, p.2⟩ := sound.bets
    rw [full, bets, List.map_map]
    exact sound.snapped_placed.distinct

theorem Renumbering.swap_moves {i j : Int} (first : i ∈ options) (second : j ∈ options)
    (alike : takenAt board i = takenAt board j) :
    (Renumbering.swap first second).Moves board board where
  taken k _ := by
    change takenAt board (Equiv.swap i j k) = takenAt board k
    by_cases left : k = i
    · rw [left, Equiv.swap_apply_left, alike]
    · by_cases right : k = j
      · rw [right, Equiv.swap_apply_right, alike]
      · rw [Equiv.swap_apply_of_ne_of_ne left right]
  skim := rfl
  remaining := rfl
  isOpen := rfl
  reward := rfl

theorem planObserved?_renumbered {room : Nat} {o o' : Observation} {d : Draft} {candidates : List Int}
    (σ : Renumbering) (seen : o.check? room = .ok board) (seen' : o'.check? room = .ok board')
    (drafted : d.check? room = .ok s) (moved : σ.Moves board board')
    (kept : Screen.kept? board s = .ok candidates)
    (enough : (∀ i ∈ candidates, takenAt board i ≠ 0) ∨
      s.minBet * board.stakes.count 0 ≤ s.bankroll) :
    ∃ round round', planObserved? room o d = .ok round ∧ planObserved? room o' d = .ok round' ∧
      round'.plan = round.plan.renumber σ ∧
      ∀ i ∈ options, ∀ j ∈ options, takenAt board i = takenAt board j →
        round.plan.stakes.amount i = round.plan.stakes.amount j := by
  have strategy := (Draft.check?_eq_ok_iff.1 drafted).2
  have valid := (Observation.check?_eq_ok_iff.1 seen).2
  have valid' := (Observation.check?_eq_ok_iff.1 seen').2
  rw [Screen.kept?_ok valid strategy.unitValue_nonneg] at kept
  cases kept
  have reaches := valid.reaches strategy enough
  obtain ⟨round, run, -, same, planned⟩ := planObserved?_planned seen drafted
  obtain ⟨round', run', -, same', planned'⟩ := planObserved?_planned seen' drafted
  refine ⟨round, round', run, run',
    planned.plan_renumbered same same' planned' moved valid valid' strategy reaches, ?_⟩
  intro i first j second alike
  have exchange := Renumbering.swap_moves first second alike
  have fixed := planned.plan_renumbered same same planned exchange valid valid strategy reaches
  have amounts := Plan.amount_renumber (planned.distinct same) fixed j
  have place : Renumbering.swap first second j = i := Equiv.swap_apply_right i j
  rwa [place] at amounts

-- The option that nobody staked changes places with the one that was staked most.
def endsSwapped : Renumbering :=
  Renumbering.swap (show 0 ∈ options by decide) (show 24 ∈ options by decide)

def slantedSwapped : Board :=
  { slanted with
    stakes := 960 :: slanted.stakes.tail.dropLast ++ [0]
    bettors := List.replicate 25 3 }

theorem planObserved?_renumbered_ends :
    ∃ round round',
      planObserved? 0 slanted.observed (Strategy.drafted ⟨70, 20, 4, 2, 80000000000, 2, 1, 3⟩) =
        .ok round ∧
      planObserved? 0 slantedSwapped.observed
        (Strategy.drafted ⟨70, 20, 4, 2, 80000000000, 2, 1, 3⟩) = .ok round' ∧
      round'.plan = round.plan.renumber endsSwapped := by
  have board : slanted.Valid := by decide
  have board' : slantedSwapped.Valid := by decide
  have strategy : Strategy.Valid ⟨70, 20, 4, 2, 80000000000, 2, 1, 3⟩ := by decide
  have moved : endsSwapped.Moves slanted slantedSwapped := ⟨by decide, rfl, rfl, rfl, rfl⟩
  have candidates := Screen.kept?_ok board strategy.unitValue_nonneg
  obtain ⟨round, round', run, run', same, -⟩ :=
    planObserved?_renumbered endsSwapped board.check?_observed board'.check?_observed
      strategy.check?_drafted moved candidates (.inr (by decide))
  exact ⟨round, round', run, run', same⟩

end Parimutuel
