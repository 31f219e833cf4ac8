import Parimutuel.Unchecked.Agreement.Appraisal
import Parimutuel.Unchecked.Agreement.Sorting
import Parimutuel.Unchecked.Snap

namespace Parimutuel

theorem Stakes.put_fresh {s : Stakes} {i : Int} (x : Int) (fresh : i ∉ s.numbers) :
    s.put i x = s ++ [(i, x)] := by
  induction s with
  | nil => rfl
  | cons head rest ih =>
    simp only [numbers, List.map_cons, List.mem_cons, not_or] at fresh ih
    simp only [put, if_neg (Ne.symm fresh.1), ih fresh.2, List.cons_append]

theorem Stakes.merge_fresh {s t : Stakes} (distinct : Stakes.numbers (s ++ t) |>.Nodup) :
    s.merge t = s ++ t := by
  induction t generalizing s with
  | nil => exact (List.append_nil s).symm
  | cons p rest ih =>
    have fresh : p.1 ∉ s.numbers := by
      intro member
      rw [numbers, List.map_append, List.nodup_append] at distinct
      exact distinct.2.2 p.1 member p.1 (by simp) rfl
    have regroup : s ++ p :: rest = s ++ [p] ++ rest := by simp
    rw [regroup] at distinct ⊢
    rw [← ih distinct, ← put_fresh p.2 fresh]
    rfl

theorem Stakes.ofPairs_distinct {s : Stakes} (distinct : s.numbers.Nodup) :
    Stakes.ofPairs s = s := merge_fresh (s := []) distinct

def Snapped.snapping (s : Snapped) : Snapping where
  stakes := s.stakes.map Entries.ofStake
  appraisal := s.model.appraisal
  rejected := s.rejected.map fun p => (.int p.1, p.2)

namespace Snapping

theorem withPool?_stakes (m : Model) {s : Stakes} (distinct : s.numbers.Nodup) :
    m.appraisal.withPool? (.entries (s.map Entries.ofStake)) =
      ((m.withStakes? s).map Model.appraisal).mapError .fault := by
  have observation : m.appraisal.observation = m.board.observed := rfl
  have draft : m.appraisal.draft = m.strategy.drafted := rfl
  simp only [Appraisal.withPool?, Pool.holdings?_entries, Stakes.ofPairs_distinct distinct,
    observation, draft, Appraisal.of?_observed, Model.withStakes?, Model.reprice?, bind, Except.bind]
  cases Holdings.ofStakes? s <;> rfl

def ofTrimmed (r : Stakes × List (Int × Rejection)) : Entries × List (Json × Rejection) :=
  (r.1.map Entries.ofStake, r.2.map fun p => (.int p.1, p.2))

theorem trim?_stakes (strategy : Strategy) (s : Stakes) :
    trim? strategy.drafted (s.map Entries.ofStake) =
      ((Snap.trim? strategy s).map ofTrimmed).mapError .fault := by
  induction s with
  | nil => rfl
  | cons p rest ih =>
    obtain ⟨i, amount⟩ := p
    have tick : strategy.drafted.tick = .int strategy.tick := rfl
    have minBet : strategy.drafted.minBet = .int strategy.minBet := rfl
    have cap : strategy.drafted.cap = .int strategy.cap := rfl
    simp only [List.map_cons, Entries.ofStake, trim?, Snap.trim?, tick, minBet, cap,
      Json.floorDivide?_int, bind, Except.bind] at ih ⊢
    cases divide? amount strategy.tick with
    | error fault => rfl
    | ok ticks =>
      simp only [Json.ofInt?_ok, Json.multiply?_int, Json.relate?_int, Relation.ofInts,
        Json.smaller?_int, ih]
      cases Snap.trim? strategy rest with
      | error fault =>
        by_cases low : ticks * strategy.tick < strategy.minBet
        · simp [low, Except.map, mapError_error]
        · simp [low, Except.map, mapError_error]
      | ok r =>
        by_cases low : ticks * strategy.tick < strategy.minBet
        · by_cases staked : 0 < amount
          · simp [low, staked, Except.map, mapError_ok, pure, Except.pure, ofTrimmed]
          · simp [low, staked, Except.map, mapError_ok, pure, Except.pure, ofTrimmed]
        · simp [low, Except.map, mapError_ok, pure, Except.pure, ofTrimmed, Entries.ofStake]

def ofSieved (r : Stakes × List Int) : Entries × List Json :=
  (r.1.map Entries.ofStake, r.2.map .int)

theorem sieve?_stakes (m : Model) (lengths : m.prizes.length = m.crosses.length) (s : Stakes) :
    sieve? m.appraisal (s.map Entries.ofStake) =
      ((Snap.sieve? m s).map ofSieved).mapError .fault := by
  induction s with
  | nil => rfl
  | cons p rest ih =>
    obtain ⟨i, stake⟩ := p
    simp only [List.map_cons, Entries.ofStake, sieve?, Snap.sieve?,
      Appraisal.value?_appraisal m lengths, bind, Except.bind] at ih ⊢
    cases m.value? i stake with
    | error fault => rfl
    | ok value =>
      simp only [Json.ofInt?_ok, Json.relate?_int, Relation.ofInts, ih]
      cases Snap.sieve? m rest with
      | error fault => rfl
      | ok r =>
        by_cases lost : value ≤ 0
        · simp [lost, Except.map, mapError_ok, pure, Except.pure, ofSieved]
        · simp [lost, Except.map, mapError_ok, pure, Except.pure, ofSieved, Entries.ofStake]

theorem sieve?_sublist {m : Model} {s kept : Stakes} {losers : List Int}
    (run : Snap.sieve? m s = .ok (kept, losers)) : kept.Sublist s := by
  induction s generalizing kept losers with
  | nil => cases run; exact .refl _
  | cons p rest ih =>
    obtain ⟨i, stake⟩ := p
    obtain ⟨value, _, run⟩ := bind_ok run
    obtain ⟨⟨others, more⟩, sieved, run⟩ := bind_ok run
    have inside := ih sieved
    by_cases lost : value ≤ 0
    · simp only [if_pos lost] at run
      cases run
      exact inside.cons (i, stake)
    · simp only [if_neg lost] at run
      cases run
      exact inside.cons_cons (i, stake)

theorem trim?_numbers {strategy : Strategy} {s kept : Stakes} {short : List (Int × Rejection)}
    (run : Snap.trim? strategy s = .ok (kept, short)) : kept.numbers.Sublist s.numbers := by
  induction s generalizing kept short with
  | nil => cases run; exact .refl _
  | cons p rest ih =>
    obtain ⟨i, amount⟩ := p
    obtain ⟨ticks, _, run⟩ := bind_ok run
    obtain ⟨⟨others, more⟩, trimmed, run⟩ := bind_ok run
    have inside := ih trimmed
    by_cases low : ticks * strategy.tick < strategy.minBet
    · simp only [if_pos low] at run
      cases run
      exact inside.cons i
    · simp only [if_neg low] at run
      cases run
      exact inside.cons_cons i

theorem withStakes?_lengths {m priced : Model} {s : Stakes} (run : m.withStakes? s = .ok priced) :
    priced.prizes.length = priced.crosses.length := by
  obtain ⟨holdings, _, run⟩ := bind_ok run
  obtain ⟨prizes, crosses⟩ := Model.price?_lengths run
  rw [prizes, crosses]

def ofRejected (rejected : List (Int × Rejection)) : List (Json × Rejection) :=
  rejected.map fun p => (.int p.1, p.2)

theorem ofRejected_drop (rejected : List (Int × Rejection)) (losers : List Int) :
    ofRejected (rejected ++ losers.map fun i => (i, .notPaying)) =
      ofRejected rejected ++ (losers.map Json.int).map fun key => (key, .notPaying) := by
  simp [ofRejected]

theorem eliminate?_sieved {base priced : Appraisal} {e kept : Entries} {losers : List Json}
    {rejected : List (Json × Rejection)} (pricing : base.withPool? (.entries e) = .ok priced)
    (sieved : sieve? priced e = .ok (kept, losers)) :
    eliminate? base e rejected =
      if losers.isEmpty then .ok ⟨e, priced, rejected⟩
      else eliminate? base kept (rejected ++ losers.map fun key => (key, .notPaying)) := by
  rw [eliminate?, pricing]
  dsimp only
  split
  next failed => rw [sieved] at failed; cases failed
  next run => rw [sieved] at run; cases run; rfl

theorem eliminate?_stakes (base : Model) (s : Stakes) (rejected : List (Int × Rejection))
    (distinct : s.numbers.Nodup) :
    eliminate? base.appraisal (s.map Entries.ofStake) (ofRejected rejected) =
      ((Snap.eliminate? base s rejected).map Snapped.snapping).mapError .fault := by
  fun_induction Snap.eliminate? base s rejected with
  | case1 s rejected fault failed =>
    rw [eliminate?, withPool?_stakes base distinct, failed]
    rfl
  | case2 s rejected priced priced? fault failed =>
    have sieved := sieve?_stakes priced (withStakes?_lengths priced?) s
    rw [failed] at sieved
    rw [eliminate?, withPool?_stakes base distinct, priced?]
    simp only [Except.map, mapError_ok, mapError_error] at sieved ⊢
    split
    next other => rw [sieved] at other; cases other; rfl
    next run => rw [sieved] at run; cases run
  | case3 s rejected priced priced? kept sieved? =>
    have pricing := withPool?_stakes base distinct
    have sieved := sieve?_stakes priced (withStakes?_lengths priced?) s
    rw [priced?] at pricing
    rw [sieved?] at sieved
    rw [eliminate?_sieved pricing sieved]
    rfl
  | case4 s rejected priced priced? kept losers sieved? dropped ih =>
    have pricing := withPool?_stakes base distinct
    have sieved := sieve?_stakes priced (withStakes?_lengths priced?) s
    rw [priced?] at pricing
    rw [sieved?] at sieved
    have remaining : kept.numbers.Nodup := distinct.sublist ((sieve?_sublist sieved?).map _)
    rw [eliminate?_sieved pricing sieved, ← ih remaining, ofRejected_drop]
    simp [dropped]

end Snapping

theorem Snapping.of?_snap (m : Model) {s : Stakes} (strategy : Strategy)
    (distinct : s.numbers.Nodup) :
    Snapping.of? m.appraisal (s.map Entries.ofStake) strategy.drafted =
      ((Snap.snap? m s strategy).map Snapped.snapping).mapError .fault := by
  simp only [Snapping.of?, Entries.sorted?_stakes distinct, bind, Except.bind,
    Snapping.trim?_stakes, Snap.snap?]
  cases trimmed : Snap.trim? strategy s.sorted with
  | error fault => rfl
  | ok r =>
    have sorted : s.sorted.numbers.Nodup :=
      ((List.mergeSort_perm s _).map Prod.fst).nodup_iff.2 distinct
    exact Snapping.eliminate?_stakes m r.1 r.2 (sorted.sublist (Snapping.trim?_numbers trimmed))

end Parimutuel
