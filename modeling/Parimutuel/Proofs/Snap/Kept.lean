import Parimutuel.Proofs.Pricing.Growth

namespace Parimutuel

-- Every stake pays when all of them are held.
def Model.Pays (base : Model) (s : Stakes) : Prop :=
  ∀ p ∈ s, 0 < ((base.against s).quoteAt p.1).value p.2

namespace Snap

def onTick (s : Strategy) (amount : Int) : Int := amount / s.tick * s.tick

-- Stakes after trimming, and the options where it left too little.
def trimmed (s : Strategy) (stakes : Stakes) : Stakes :=
  (stakes.filter fun p => s.minBet ≤ onTick s p.2).map fun p => (p.1, min (onTick s p.2) s.cap)

def short (s : Strategy) (stakes : Stakes) : List (Int × Rejection) :=
  (stakes.filter fun p => onTick s p.2 < s.minBet ∧ 0 < p.2).map fun p => (p.1, .belowMinBet)

theorem trim?_ok {s : Strategy} (tick : 0 < s.tick) (stakes : Stakes) :
    trim? s stakes = .ok (trimmed s stakes, short s stakes) := by
  induction stakes with
  | nil => rfl
  | cons p rest ih =>
    obtain ⟨i, amount⟩ := p
    have down : divide? amount s.tick = .ok (amount / s.tick) := divide?_pos tick
    have cut : amount / s.tick * s.tick = onTick s amount := rfl
    simp only [trim?, down, cut, ih, bind, Except.bind, pure, Except.pure]
    by_cases low : onTick s amount < s.minBet
    · have drop : ¬ s.minBet ≤ onTick s amount := Int.not_le.2 low
      by_cases staked : 0 < amount
      · simp [trimmed, short, low, staked, drop]
      · simp [trimmed, short, staked, drop]
    · have keep : s.minBet ≤ onTick s amount := Int.not_lt.1 low
      simp [trimmed, short, low, keep]

theorem onTick_le {s : Strategy} (tick : 0 < s.tick) (amount : Int) : onTick s amount ≤ amount :=
  Int.ediv_mul_le amount (Int.ne_of_gt tick)

theorem mem_trimmed {s : Strategy} {stakes : Stakes} {p : Int × Int} :
    p ∈ trimmed s stakes ↔
      ∃ q ∈ stakes, s.minBet ≤ onTick s q.2 ∧ p = (q.1, min (onTick s q.2) s.cap) := by
  constructor
  · intro member
    obtain ⟨q, kept, rfl⟩ := List.mem_map.1 member
    obtain ⟨inside, large⟩ := List.mem_filter.1 kept
    exact ⟨q, inside, of_decide_eq_true large, rfl⟩
  · rintro ⟨q, inside, large, rfl⟩
    exact List.mem_map_of_mem (List.mem_filter.2 ⟨inside, decide_eq_true large⟩)

theorem onTick_of_dvd {s : Strategy} {amount : Int} (ticks : s.tick ∣ amount) :
    onTick s amount = amount :=
  Int.ediv_mul_cancel ticks

theorem cut_minBet {s : Strategy} (valid : s.Valid) : min (onTick s s.minBet) s.cap = s.minBet := by
  rw [onTick_of_dvd valid.minBet_tick, Int.min_eq_left valid.minBet_le]

theorem trimmed_bounds {s : Strategy} (valid : s.Valid) {stakes : Stakes} {p : Int × Int}
    (member : p ∈ trimmed s stakes) : s.tick ∣ p.2 ∧ s.minBet ≤ p.2 ∧ p.2 ≤ s.cap := by
  obtain ⟨q, _, large, rfl⟩ := mem_trimmed.1 member
  have least := valid.minBet_le
  refine ⟨?_, Int.le_min.2 ⟨large, least⟩, Int.min_le_right _ _⟩
  by_cases small : onTick s q.2 ≤ s.cap
  · rw [Int.min_eq_left small]
    exact Int.dvd_mul_left (q.2 / s.tick) s.tick
  · rw [Int.min_eq_right (Int.le_of_not_le small)]
    exact valid.cap_tick

theorem trimmed_numbers (s : Strategy) (stakes : Stakes) :
    (trimmed s stakes).numbers.Sublist stakes.numbers := by
  unfold trimmed Stakes.numbers
  rw [List.map_map]
  exact List.filter_sublist.map Prod.fst

theorem trimmed_placed (s : Strategy) {stakes : Stakes} (placed : stakes.Placed) :
    (trimmed s stakes).Placed :=
  ⟨placed.distinct.sublist (trimmed_numbers s stakes), fun i member =>
    placed.known i ((trimmed_numbers s stakes).subset member)⟩

theorem trimmed_total_le {s : Strategy} (tick : 0 < s.tick) {stakes : Stakes}
    (nonneg : ∀ p ∈ stakes, 0 ≤ p.2) : (trimmed s stakes).total ≤ stakes.total := by
  induction stakes with
  | nil => exact Int.le_refl 0
  | cons p rest ih =>
    have first := nonneg p List.mem_cons_self
    have others := ih fun q member => nonneg q (List.mem_cons_of_mem p member)
    have down := onTick_le tick p.2
    unfold trimmed at others ⊢
    rw [List.filter_cons, Stakes.total_cons]
    by_cases large : s.minBet ≤ onTick s p.2
    · simp only [large, decide_true, if_true, List.map_cons, Stakes.total_cons]
      omega
    · simp only [large, decide_false, Bool.false_eq_true, if_false]
      omega

def paying (priced : Model) (s : Stakes) : Stakes :=
  s.filter fun p => 0 < (priced.quoteAt p.1).value p.2

def losing (priced : Model) (s : Stakes) : List Int :=
  Stakes.numbers (s.filter fun p => (priced.quoteAt p.1).value p.2 ≤ 0)

theorem sieve?_ok {priced : Model} (sound : priced.Sound) {s : Stakes}
    (known : ∀ i ∈ s.numbers, i ∈ options) :
    sieve? priced s = .ok (paying priced s, losing priced s) := by
  induction s with
  | nil => rfl
  | cons p rest ih =>
    obtain ⟨i, stake⟩ := p
    have member : i ∈ options := known i List.mem_cons_self
    have others := ih fun j inside => known j (List.mem_cons_of_mem i inside)
    simp only [sieve?, sound.value? member, others, bind, Except.bind, pure, Except.pure]
    by_cases lost : (priced.quoteAt i).value stake ≤ 0
    · have drop : ¬ 0 < (priced.quoteAt i).value stake := Int.not_lt.2 lost
      simp [paying, losing, Stakes.numbers, lost, drop]
    · have keep : 0 < (priced.quoteAt i).value stake := Int.not_le.1 lost
      simp [paying, losing, Stakes.numbers, lost, keep]

theorem pays_of_losing_nil {priced : Model} {s : Stakes} (nobody : losing priced s = []) :
    ∀ p ∈ s, 0 < (priced.quoteAt p.1).value p.2 := by
  intro p member
  apply Int.not_le.1
  intro lost
  have dropped : p ∈ s.filter fun p => (priced.quoteAt p.1).value p.2 ≤ 0 :=
    List.mem_filter.2 ⟨member, decide_eq_true lost⟩
  have named := Stakes.numbers_of_mem dropped
  unfold losing at nobody
  rw [nobody] at named
  cases named

-- What is left of stakes after sieving to the end.
structure Kept (base : Model) (s : Stakes) (r : Snapped) : Prop where
  inside : r.stakes.Sublist s
  model : r.model = base.against r.stakes
  pays : base.Pays r.stakes
  greatest : ∀ u : Stakes, u ⊆ s → base.Pays u → u ⊆ r.stakes

-- A part in which every stake pays survives the sieve of the whole.
theorem subset_paying {base : Model} (sound : base.Sound) {s u : Stakes} (placed : s.Placed)
    (part : u ⊆ s) (pays : base.Pays u) : u ⊆ paying (base.against s) s := by
  intro p member
  apply List.mem_filter.2
  refine ⟨part member, decide_eq_true ?_⟩
  have known : p.1 ∈ options := placed.known p.1 (Stakes.numbers_of_mem (part member))
  have below := Model.against_below sound placed.distinct part known
  have taken := ((sound.against u).quoteAt_nonneg known).1
  exact Int.lt_of_lt_of_le (pays p member) (below.value taken p.2)

theorem eliminate?_kept {base : Model} (sound : base.Sound) {s : Stakes} (placed : s.Placed)
    (rejected : List (Int × Rejection)) :
    ∃ r, eliminate? base s rejected = .ok r ∧ Kept base s r := by
  have pricing := sound.withStakes? placed
  have sieving := sieve?_ok (sound.against s) placed.known
  fun_induction eliminate? base s rejected with
  | case1 s rejected fault failed =>
    rw [pricing] at failed
    cases failed
  | case2 s rejected priced answer fault failed =>
    rw [pricing] at answer
    cases answer
    rw [sieving] at failed
    cases failed
  | case3 s rejected priced answer kept sieved =>
    rw [pricing] at answer
    cases answer
    rw [sieving] at sieved
    have nobody : losing (base.against s) s = [] := (Prod.mk.inj (Except.ok.inj sieved)).2
    exact ⟨_, rfl, .refl s, rfl, pays_of_losing_nil nobody, fun u part _ => part⟩
  | case4 s rejected priced answer kept losers sieved dropped ih =>
    rw [pricing] at answer
    cases answer
    rw [sieving] at sieved
    have same : paying (base.against s) s = kept := (Prod.mk.inj (Except.ok.inj sieved)).1
    have fewer : kept.Sublist s := same ▸ List.filter_sublist
    have remaining := placed.sublist fewer
    obtain ⟨r, run, result⟩ := ih remaining (sound.withStakes? remaining)
      (sieve?_ok (sound.against kept) remaining.known)
    refine ⟨r, run, result.inside.trans fewer, result.model, result.pays, ?_⟩
    intro u part pays
    apply result.greatest u _ pays
    rw [← same]
    exact subset_paying sound placed part pays

theorem Kept.all {base : Model} {s : Stakes} {r : Snapped} (kept : Kept base s r)
    (distinct : s.numbers.Nodup) (pays : base.Pays s) : r.stakes = s := by
  have whole : s ⊆ r.stakes := kept.greatest s (List.Subset.refl s) pays
  have fresh : s.Nodup := List.Nodup.of_map Prod.fst distinct
  exact kept.inside.eq_of_length_le (fresh.subperm whole).length_le

-- Where no stake pays next to all the others nothing is left.
theorem Kept.nothing {base : Model} (sound : base.Sound) {s : Stakes} {r : Snapped} (kept : Kept base s r)
    (placed : s.Placed) (lost : paying (base.against s) s = []) : r.stakes = [] := by
  have part := subset_paying sound placed kept.inside.subset kept.pays
  rw [lost] at part
  exact List.eq_nil_of_subset_nil part

-- What is kept of trimmed stakes are bets that the strategy allows, by option.
section Trimmed

variable {base : Model} {s : Strategy} {stakes : Stakes} {r : Snapped}

theorem Kept.placed (kept : Kept base (trimmed s stakes.sorted) r) (placed : stakes.Placed) :
    r.stakes.Placed :=
  (trimmed_placed s (placed.perm (Stakes.sorted_perm stakes).symm)).sublist kept.inside

theorem Kept.ascending (kept : Kept base (trimmed s stakes.sorted) r) (placed : stakes.Placed) :
    r.stakes.numbers.Pairwise (· < ·) := by
  have sorted := Stakes.sorted_numbers placed.distinct
  exact (sorted.sublist (trimmed_numbers s _)).sublist (kept.inside.map Prod.fst)

theorem Kept.numbers (kept : Kept base (trimmed s stakes.sorted) r) :
    r.stakes.numbers ⊆ stakes.numbers := by
  intro i member
  have trimmed := (trimmed_numbers s _).subset ((kept.inside.map Prod.fst).subset member)
  exact ((Stakes.sorted_perm stakes).map Prod.fst).mem_iff.1 trimmed

theorem Kept.bounds (kept : Kept base (trimmed s stakes.sorted) r) (valid : s.Valid)
    {p : Int × Int} (member : p ∈ r.stakes) : s.tick ∣ p.2 ∧ s.minBet ≤ p.2 ∧ p.2 ≤ s.cap :=
  trimmed_bounds valid (kept.inside.subset member)

theorem Kept.positive (kept : Kept base (trimmed s stakes.sorted) r) (valid : s.Valid) :
    ∀ p ∈ r.stakes, 0 < p.2 := fun _ member =>
  Int.lt_of_lt_of_le valid.minBet_pos (kept.bounds valid member).2.1

theorem Kept.total_le (kept : Kept base (trimmed s stakes.sorted) r) (valid : s.Valid)
    (nonneg : ∀ p ∈ stakes, 0 ≤ p.2) : r.stakes.total ≤ stakes.total := by
  have trimmed : ∀ p ∈ trimmed s stakes.sorted, 0 ≤ p.2 := fun p member =>
    Int.le_of_lt (Int.lt_of_lt_of_le valid.minBet_pos (trimmed_bounds valid member).2.1)
  have sorted : ∀ p ∈ stakes.sorted, 0 ≤ p.2 := fun p member =>
    nonneg p ((Stakes.sorted_perm stakes).mem_iff.1 member)
  calc r.stakes.total
      ≤ (Snap.trimmed s stakes.sorted).total := Stakes.total_sublist_le kept.inside trimmed
    _ ≤ stakes.sorted.total := trimmed_total_le valid.tick_pos sorted
    _ = stakes.total := Stakes.total_perm (Stakes.sorted_perm stakes)

end Trimmed

theorem snap?_kept {base : Model} (sound : base.Sound) {s : Strategy} (tick : 0 < s.tick)
    {stakes : Stakes} (placed : stakes.Placed) :
    ∃ r, snap? base stakes s = .ok r ∧ Kept base (trimmed s stakes.sorted) r := by
  have sorted := placed.perm (Stakes.sorted_perm stakes).symm
  rw [snap?, trim?_ok tick]
  exact eliminate?_kept sound (trimmed_placed s sorted) _

end Snap
end Parimutuel
