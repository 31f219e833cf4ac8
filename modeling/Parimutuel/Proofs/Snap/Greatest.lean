import Parimutuel.Proofs.Acceptance
import Parimutuel.Proofs.Snap.Elimination

namespace Parimutuel.Snap

-- Stakes that all pay when the board is priced against exactly these.
def Consistent (base : Model) (stakes : Stakes) : Prop :=
  ∃ priced, base.withStakes? stakes = .ok priced ∧
    ∀ p ∈ stakes, ∃ value, priced.value? p.1 p.2 = .ok value ∧ 0 < value

theorem consistent_iff {base : Model} (sound : base.Sound) {stakes : Stakes} (placed : stakes.Placed) :
    Consistent base stakes ↔ base.Pays stakes := by
  constructor
  · rintro ⟨priced, pricing, pays⟩ p member
    have known := placed.known p.1 (Stakes.numbers_of_mem member)
    obtain ⟨value, valued, positive⟩ := pays p member
    cases (sound.withStakes? placed).symm.trans pricing
    cases ((sound.against stakes).value? known p.2).symm.trans valued
    exact positive
  · intro pays
    refine ⟨_, sound.withStakes? placed, ?_⟩
    intro p member
    have known := placed.known p.1 (Stakes.numbers_of_mem member)
    exact ⟨_, (sound.against stakes).value? known p.2, pays p member⟩

section Trimming

variable {s : Strategy} {stakes : Stakes}

theorem trimmed_perm (s : Strategy) {other : Stakes} (perm : stakes.Perm other) :
    (trimmed s stakes).Perm (trimmed s other) := (perm.filter _).map _

theorem mem_trimmed_numbers (placed : stakes.Placed) {i : Int} :
    i ∈ (trimmed s stakes).numbers ↔
      i ∈ stakes.numbers ∧ s.minBet ≤ onTick s (stakes.amount i) := by
  constructor
  · intro named
    obtain ⟨p, entry, rfl⟩ := List.mem_map.1 named
    obtain ⟨q, inside, large, rfl⟩ := mem_trimmed.1 entry
    have named := Stakes.numbers_of_mem inside
    dsimp only
    rw [Stakes.amount_of_mem placed.distinct inside]
    exact ⟨named, large⟩
  · rintro ⟨named, large⟩
    obtain ⟨q, inside, rfl⟩ := List.mem_map.1 named
    rw [Stakes.amount_of_mem placed.distinct inside] at large
    have named := Stakes.numbers_of_mem (mem_trimmed.2 ⟨q, inside, large, rfl⟩)
    exact named

-- What is too small to bet is what trimming leaves nothing of.
theorem mem_short (placed : stakes.Placed) {p : Int × Rejection} :
    p ∈ short s stakes ↔
      p.2 = .belowMinBet ∧ 0 < stakes.amount p.1 ∧ p.1 ∉ (trimmed s stakes).numbers := by
  constructor
  · intro entry
    obtain ⟨q, kept, rfl⟩ := List.mem_map.1 entry
    obtain ⟨inside, low⟩ := List.mem_filter.1 kept
    obtain ⟨small, staked⟩ := of_decide_eq_true low
    rw [mem_trimmed_numbers placed, Stakes.amount_of_mem placed.distinct inside]
    exact ⟨rfl, staked, fun large => Int.not_lt.2 large.2 small⟩
  · rintro ⟨reason, staked, absent⟩
    have inside := Stakes.mem_of_amount (Int.ne_of_gt staked)
    have small : onTick s (stakes.amount p.1) < s.minBet := by
      apply Int.not_le.1
      intro large
      exact absent ((mem_trimmed_numbers placed).2 ⟨Stakes.numbers_of_mem inside, large⟩)
    refine List.mem_map.2 ⟨_, List.mem_filter.2 ⟨inside, ?_⟩, Prod.ext rfl reason.symm⟩
    exact decide_eq_true ⟨small, staked⟩

theorem short_perm (s : Strategy) {other : Stakes} (perm : stakes.Perm other) :
    (short s stakes).Perm (short s other) := (perm.filter _).map _

theorem short_numbers (s : Strategy) (stakes : Stakes) :
    ((short s stakes).map Prod.fst).Sublist stakes.numbers := by
  unfold short Stakes.numbers
  rw [List.map_map]
  exact List.filter_sublist.map Prod.fst

theorem trim?_allowed (tick : 0 < s.tick)
    (allowed : ∀ p ∈ stakes, s.tick ∣ p.2 ∧ s.minBet ≤ p.2 ∧ p.2 ≤ s.cap) :
    trim? s stakes = .ok (stakes, []) := by
  have whole : ∀ p ∈ stakes, onTick s p.2 = p.2 := fun p member => onTick_of_dvd (allowed p member).1
  have large : stakes.filter (fun p => s.minBet ≤ onTick s p.2) = stakes := by
    apply List.filter_eq_self.2
    intro p member
    rw [whole p member]
    exact decide_eq_true (allowed p member).2.1
  have none : stakes.filter (fun p => onTick s p.2 < s.minBet ∧ 0 < p.2) = [] := by
    apply List.filter_eq_nil_iff.2
    intro p member
    rw [whole p member, decide_eq_true_iff]
    exact fun small => Int.not_lt.2 (allowed p member).2.1 small.1
  have same : stakes.map (fun p => (p.1, min (onTick s p.2) s.cap)) = stakes := by
    calc stakes.map (fun p => (p.1, min (onTick s p.2) s.cap))
        = stakes.map id := List.map_congr_left fun p member => by
          rw [whole p member, Int.min_eq_left (allowed p member).2.2]
          rfl
      _ = stakes := List.map_id stakes
  rw [trim?_ok tick, trimmed, short, large, none, same]
  rfl

end Trimming

section Run

variable {base : Model} {s : Strategy} {stakes : Stakes} {n : Nat} {r : Snapped}

theorem Elimination.gone (placed : stakes.Placed)
    (run : Elimination base n (trimmed s stakes.sorted) (short s stakes.sorted) r) :
    ∃ gone : List Int, r.rejected.Perm (short s stakes ++ gone.map fun i => (i, .notPaying)) ∧
      gone.Nodup ∧ ∀ i, i ∈ gone ↔ i ∈ (trimmed s stakes).numbers ∧ i ∉ r.stakes.numbers := by
  have sorting := Stakes.sorted_perm stakes
  obtain ⟨gone, same, parts⟩ := run.parts
  have all : (r.stakes.numbers ++ gone).Perm (trimmed s stakes).numbers :=
    parts.trans ((trimmed_perm s sorting).map Prod.fst)
  obtain ⟨_, distinct, apart⟩ := List.nodup_append.1 (all.nodup_iff.2 (trimmed_placed s placed).distinct)
  refine ⟨gone, ?_, distinct, ?_⟩
  · rw [same]
    exact (short_perm s sorting).append_right _
  · intro i
    constructor
    · intro dropped
      exact ⟨all.mem_iff.1 (List.mem_append.2 (.inr dropped)), fun left => apart i left i dropped rfl⟩
    · rintro ⟨named, absent⟩
      exact (List.mem_append.1 (all.mem_iff.2 named)).resolve_left absent

theorem Elimination.mem_rejected (placed : stakes.Placed)
    (run : Elimination base n (trimmed s stakes.sorted) (short s stakes.sorted) r)
    {p : Int × Rejection} :
    p ∈ r.rejected ↔
      (p.2 = .belowMinBet ∧ 0 < stakes.amount p.1 ∧ p.1 ∉ (trimmed s stakes).numbers) ∨
      (p.2 = .notPaying ∧ p.1 ∈ (trimmed s stakes).numbers ∧ p.1 ∉ r.stakes.numbers) := by
  obtain ⟨gone, same, _, dropped⟩ := run.gone placed
  have losers : p ∈ (gone.map fun i => (i, Rejection.notPaying)) ↔ p.2 = .notPaying ∧ p.1 ∈ gone := by
    constructor
    · intro member
      obtain ⟨i, inside, rfl⟩ := List.mem_map.1 member
      exact ⟨rfl, inside⟩
    · rintro ⟨reason, inside⟩
      exact List.mem_map.2 ⟨p.1, inside, Prod.ext rfl reason.symm⟩
  rw [same.mem_iff, List.mem_append, mem_short placed, losers, dropped]

theorem Elimination.rejected_distinct (placed : stakes.Placed)
    (run : Elimination base n (trimmed s stakes.sorted) (short s stakes.sorted) r) :
    (r.rejected.map Prod.fst).Nodup := by
  obtain ⟨gone, same, distinct, dropped⟩ := run.gone placed
  have names : (gone.map fun i => (i, Rejection.notPaying)).map Prod.fst = gone := by
    rw [List.map_map]
    exact List.map_id gone
  rw [(same.map Prod.fst).nodup_iff, List.map_append, names, List.nodup_append]
  refine ⟨placed.distinct.sublist (short_numbers s stakes), distinct, ?_⟩
  rintro i low j lost rfl
  obtain ⟨p, entry, rfl⟩ := List.mem_map.1 low
  exact ((mem_short placed).1 entry).2.2 ((dropped p.1).1 lost).1

end Run

-- What snapping makes of stakes. The trimmed stakes are those of the options whose stake, rounded
-- down to a tick, reaches the smallest bet.
structure Outcome (base : Model) (s : Strategy) (stakes : Stakes) (r : Snapped) : Prop where
  inside : r.stakes ⊆ trimmed s stakes
  ascending : r.stakes.numbers.Pairwise (· < ·)
  consistent : Consistent base r.stakes
  greatest : ∀ part : Stakes, part.numbers.Nodup → part ⊆ trimmed s stakes → Consistent base part →
    part ⊆ r.stakes
  model : base.withStakes? r.stakes = .ok r.model
  holdings : r.model.holdings = options.map r.stakes.amount
  parted : ∀ i, 0 < stakes.amount i → (i ∈ r.stakes.numbers ↔ i ∉ r.rejected.map Prod.fst)
  distinct : (r.rejected.map Prod.fst).Nodup
  reason : ∀ p ∈ r.rejected, p.2 = .belowMinBet ↔ p.1 ∉ (trimmed s stakes).numbers
  total : r.stakes.total ≤ stakes.total
  again : snap? base r.stakes s = .ok ⟨r.stakes, r.model, []⟩

section Outcome

variable {base : Model} {s : Strategy} {stakes : Stakes} {n : Nat} {r : Snapped}

theorem eliminate?_pays (sound : base.Sound) (placed : stakes.Placed) (pays : base.Pays stakes)
    (rejected : List (Int × Rejection)) :
    eliminate? base stakes rejected = .ok ⟨stakes, base.against stakes, rejected⟩ := by
  have nobody : losing (base.against stakes) stakes = [] := by
    rw [losing, List.filter_eq_nil_iff.2 fun p member => ?_, Stakes.numbers, List.map_nil]
    rw [decide_eq_true_iff]
    exact Int.not_le.2 (pays p member)
  rw [eliminate?_turn rejected (sound.withStakes? placed)
    (sieve?_ok (sound.against stakes) placed.known), if_pos nobody]

theorem Kept.again (sound : base.Sound) (strategy : s.Valid) (placed : stakes.Placed)
    (kept : Kept base (trimmed s stakes.sorted) r) :
    snap? base r.stakes s = .ok ⟨r.stakes, r.model, []⟩ := by
  have trimming := trim?_allowed strategy.tick_pos fun p member => kept.bounds strategy member
  rw [snap?, Stakes.sorted_of_numbers (kept.ascending placed), trimming, kept.model]
  exact eliminate?_pays sound (kept.placed placed) kept.pays []

theorem Elimination.parted (placed : stakes.Placed) (within : r.stakes.numbers ⊆ (trimmed s stakes).numbers)
    (run : Elimination base n (trimmed s stakes.sorted) (short s stakes.sorted) r) {i : Int}
    (staked : 0 < stakes.amount i) : i ∈ r.stakes.numbers ↔ i ∉ r.rejected.map Prod.fst := by
  constructor
  · intro left named
    obtain ⟨p, entry, rfl⟩ := List.mem_map.1 named
    rcases (run.mem_rejected placed).1 entry with ⟨_, _, absent⟩ | ⟨_, _, absent⟩
    · exact absent (within left)
    · exact absent left
  · intro kept
    apply Decidable.byContradiction
    intro absent
    by_cases large : i ∈ (trimmed s stakes).numbers
    · have lost : (i, Rejection.notPaying) ∈ r.rejected :=
        (run.mem_rejected placed).2 (.inr ⟨rfl, large, absent⟩)
      exact kept (List.mem_map_of_mem lost)
    · have low : (i, Rejection.belowMinBet) ∈ r.rejected :=
        (run.mem_rejected placed).2 (.inl ⟨rfl, staked, large⟩)
      exact kept (List.mem_map_of_mem low)

theorem Elimination.reason (placed : stakes.Placed)
    (run : Elimination base n (trimmed s stakes.sorted) (short s stakes.sorted) r)
    {p : Int × Rejection} (member : p ∈ r.rejected) :
    p.2 = .belowMinBet ↔ p.1 ∉ (trimmed s stakes).numbers := by
  rcases (run.mem_rejected placed).1 member with ⟨low, _, absent⟩ | ⟨lost, named, _⟩
  · exact iff_of_true low absent
  · rw [lost]
    exact iff_of_false (by decide) (not_not_intro named)

theorem Kept.holdings (kept : Kept base (trimmed s stakes.sorted) r) (strategy : s.Valid) :
    r.model.holdings = options.map r.stakes.amount := by
  have nonneg : ∀ p ∈ r.stakes, 0 ≤ p.2 := fun p member =>
    Int.le_of_lt (kept.positive strategy p member)
  rw [kept.model]
  exact List.map_congr_left fun i _ => Int.max_eq_right (Stakes.amount_nonneg nonneg i)

theorem Kept.outcome (sound : base.Sound) (strategy : s.Valid) (placed : stakes.Placed)
    (nonneg : ∀ p ∈ stakes, 0 ≤ p.2) (kept : Kept base (trimmed s stakes.sorted) r)
    (run : Elimination base n (trimmed s stakes.sorted) (short s stakes.sorted) r) :
    Outcome base s stakes r := by
  have sorting := trimmed_perm s (Stakes.sorted_perm stakes)
  have left := kept.placed placed
  have within : r.stakes ⊆ trimmed s stakes := fun p member =>
    sorting.mem_iff.1 (kept.inside.subset member)
  have priced : base.withStakes? r.stakes = .ok r.model := kept.model ▸ sound.withStakes? left
  refine ⟨within, kept.ascending placed, (consistent_iff sound left).2 kept.pays, ?_, priced,
    kept.holdings strategy, fun i staked => run.parted placed (List.map_subset _ within) staked,
    run.rejected_distinct placed, fun p member => run.reason placed member,
    kept.total_le strategy nonneg, kept.again sound strategy placed⟩
  intro part distinct inside consistent
  have known : part.Placed := ⟨distinct, fun i named =>
    (trimmed_placed s placed).known i (List.map_subset _ inside named)⟩
  apply kept.greatest part
  · exact fun p member => sorting.mem_iff.2 (inside member)
  · exact (consistent_iff sound known).1 consistent

theorem snap?_outcome {board : Board} {holdings : Holdings} (valid : board.Valid) (strategy : s.Valid)
    (width : holdings.length = optionCount) (held : ∀ x ∈ holdings, 0 ≤ x) (placed : stakes.Placed)
    (nonneg : ∀ p ∈ stakes, 0 ≤ p.2) :
    ∃ base r n, Model.price? board s holdings = .ok base ∧ snap? base stakes s = .ok r ∧
      Snaps base stakes s n r ∧ n ≤ (trimmed s stakes).length + 1 ∧ Outcome base s stakes r := by
  have sound := Model.priced_sound valid strategy.unitValue_nonneg width held
  obtain ⟨r, run, kept⟩ := snap?_kept sound strategy.tick_pos placed
  obtain ⟨n, start, low, trimming, elimination⟩ := snap?_exact.1 run
  cases (trim?_ok strategy.tick_pos stakes.sorted).symm.trans trimming
  have count := elimination.count_le
  rw [(trimmed_perm s (Stakes.sorted_perm stakes)).length_eq] at count
  refine ⟨_, r, n, Model.price?_ok s valid width, run, ⟨_, _, trimming, elimination⟩, ?_,
    kept.outcome sound strategy placed nonneg elimination⟩
  omega

-- The third stake is too small to bet, the last above the cap.
def risingStakes : Stakes := [(7, 9), (0, 5), (3, 3), (24, 60)]

-- Three stakes reach the smallest bet, the fourth does not.
theorem snap?_outcome_rising :
    ∃ base r n, Model.price? ⟨options.map (40 * ·), List.replicate 25 0, 1090, 0, true, 9⟩
        ⟨70, 20, 4, 2, 80000000000, 2, 60, 2⟩ (options.map (3 * ·)) = .ok base ∧
      snap? base risingStakes ⟨70, 20, 4, 2, 80000000000, 2, 60, 2⟩ = .ok r ∧
      Snaps base risingStakes ⟨70, 20, 4, 2, 80000000000, 2, 60, 2⟩ n r ∧ n ≤ 4 ∧
      r.stakes ⊆ [(7, 8), (0, 4), (24, 20)] ∧ (3, Rejection.belowMinBet) ∈ r.rejected := by
  obtain ⟨base, r, n, pricing, run, counted, count, outcome⟩ := @snap?_outcome
    ⟨70, 20, 4, 2, 80000000000, 2, 60, 2⟩ risingStakes
    ⟨options.map (40 * ·), List.replicate 25 0, 1090, 0, true, 9⟩ (options.map (3 * ·))
    (by decide) (by decide) (by decide) (by decide) ⟨by decide, by decide⟩ (by decide)
  have large : trimmed ⟨70, 20, 4, 2, 80000000000, 2, 60, 2⟩ risingStakes =
      [(7, 8), (0, 4), (24, 20)] := by decide
  have inside := outcome.inside
  have reason := outcome.reason
  rw [large] at count inside reason
  have absent : (3 : Int) ∉ r.stakes.numbers := fun named =>
    absurd (List.map_subset Prod.fst inside named) (by decide)
  obtain ⟨p, entry, three⟩ := List.mem_map.1
    (Decidable.not_not.1 (mt (outcome.parted 3 (by decide)).2 absent))
  have low := (reason p entry).2 (three ▸ by decide)
  obtain ⟨i, why⟩ := p
  cases three
  cases low
  exact ⟨base, r, n, pricing, run, counted, count, inside, entry⟩

end Outcome

end Parimutuel.Snap
