import Parimutuel.Unchecked.Agreement.Appraisal
import Parimutuel.Unchecked.Agreement.Sorting
import Parimutuel.Unchecked.Search

namespace Parimutuel

def Terms.budget (t : Terms) : Budget where
  bankroll := .int t.bankroll
  cap := .int t.cap
  tick := .int t.tick
  iterations := .int t.iterations

def Solution.allotment (s : Solution) : Allotment where
  price := .int s.price
  stakes := s.stakes.map Entries.ofStake
  aggregate := .int s.aggregate
  iterations := s.iterations
  converged := s.converged

def ShadowPrice.Bracket.stated (b : ShadowPrice.Bracket) : Allotment.Bracket :=
  ⟨.int b.low, .int b.high, b.upper.map Entries.ofStake⟩

namespace Allotment

def ofStakes? (s : Except Fault Stakes) : Except Failure Entries :=
  (s.map fun s => s.map Entries.ofStake).mapError .fault

theorem demand?_appraisal (m : Model) (lengths : m.prizes.length = m.crosses.length) (cap : Int)
    (candidates : List Int) (price : Int) :
    demand? m.appraisal (.int cap) (candidates.map .int) (.int price) =
      ofStakes? (ShadowPrice.demand? m cap candidates price) := by
  have each (i : Int) : (do
      return (Json.int i, ← Json.smaller? (← m.appraisal.optimum? (.int i) (.int price)) (.int cap))) =
      (((do return (i, min (← m.optimum? i price) cap)) : Except Fault (Int × Int)).map
        Entries.ofStake).mapError Failure.fault := by
    simp only [Appraisal.optimum?_appraisal m lengths, bind, Except.bind]
    cases m.optimum? i price with
    | error fault => rfl
    | ok stake => simp only [Json.ofInt?_ok, Json.smaller?_int]; rfl
  rw [demand?, List.mapM_map]
  exact Appraisal.mapM_lifted Entries.ofStake candidates each

theorem eraseDups_loop (row seen : List Int) :
    List.eraseDupsBy.loop samePlace (row.map .int) (seen.map .int) =
      (List.eraseDupsBy.loop (· == ·) row seen).map .int := by
  induction row generalizing seen with
  | nil => simp [List.eraseDupsBy.loop]
  | cons i rest ih =>
    have known : (seen.map Json.int).any (samePlace (.int i)) = seen.any (i == ·) := by
      rw [List.any_map]
      rfl
    simp only [List.map_cons, List.eraseDupsBy.loop, known]
    cases seen.any (i == ·) with
    | true => exact ih seen
    | false => exact ih (i :: seen)

theorem distinct_int (candidates : List Int) :
    distinct (candidates.map .int) = candidates.eraseDups.map .int :=
  eraseDups_loop candidates []

theorem loop_nodup (row seen : List Int) (fresh : seen.Nodup) :
    (List.eraseDupsBy.loop (· == ·) row seen).Nodup := by
  induction row generalizing seen with
  | nil =>
    rw [List.eraseDupsBy.loop]
    exact (List.reverse_perm seen).nodup_iff.2 fresh
  | cons i rest ih =>
    simp only [List.eraseDupsBy.loop]
    cases known : seen.any (i == ·) with
    | true => exact ih seen fresh
    | false =>
      apply ih
      rw [List.nodup_cons]
      refine ⟨fun member => ?_, fresh⟩
      have := List.any_eq_false.1 known i member
      simp at this

theorem eraseDups_nodup (row : List Int) : row.eraseDups.Nodup := loop_nodup row [] List.nodup_nil

theorem demand?_numbers {m : Model} {cap price : Int} {candidates : List Int} {s : Stakes}
    (run : ShadowPrice.demand? m cap candidates price = .ok s) : s.numbers = candidates := by
  induction candidates generalizing s with
  | nil => cases run; rfl
  | cons i rest ih =>
    rw [ShadowPrice.demand?, List.mapM_cons] at run
    obtain ⟨p, first, run⟩ := bind_ok run
    obtain ⟨others, restRun, run⟩ := bind_ok run
    obtain ⟨stake, _, first⟩ := bind_ok first
    cases first
    cases run
    rw [← ih restRun]
    rfl

theorem positive?_stakes (s : Stakes) :
    positive? (s.map Entries.ofStake) =
      .ok ((s.filter fun p => 0 < p.2).map Entries.ofStake) := by
  induction s with
  | nil => rfl
  | cons p rest ih =>
    have staked : Json.relate? .greater (.int p.2) (.int 0) = .ok (decide (p.2 > 0)) := rfl
    simp only [List.map_cons, Entries.ofStake, positive?, staked, bind, Except.bind] at ih ⊢
    rw [ih, List.filter_cons]
    by_cases h : 0 < p.2
    · simp only [h, decide_true, if_true, pure, Except.pure, List.map_cons]
      rfl
    · simp only [h, decide_false, Bool.false_eq_true, if_false, pure, Except.pure]

theorem funded?_stakes {s : Stakes} (distinct : s.numbers.Nodup) :
    funded? (s.map Entries.ofStake) = .ok ((ShadowPrice.funded s).map Entries.ofStake) := by
  have perm : s.sorted.Perm s := List.mergeSort_perm s _
  have kept : (Stakes.numbers (s.filter fun p => 0 < p.2)).Nodup :=
    List.Nodup.sublist (List.filter_sublist.map Prod.fst) distinct
  have same := Entries.eq_sorted kept
    (List.Pairwise.filter (fun p : Int × Int => decide (0 < p.2)) (Entries.sorted_ascending s))
    (perm.filter _)
  simp only [funded?, Entries.sorted?_stakes distinct, bind, Except.bind, positive?_stakes, same]
  rfl

theorem foldlM_larger? (rest : List Int) (top : Int) :
    (rest.map Json.int).foldlM Json.larger? (.int top) = .ok (.int (rest.foldl max top)) := by
  induction rest generalizing top with
  | nil => rfl
  | cons value rest ih =>
    rw [List.map_cons, List.foldlM_cons, Json.larger?_int]
    exact ih (max top value)

theorem ceiling?_appraisal (m : Model) (lengths : m.prizes.length = m.crosses.length)
    (candidates : List Int) :
    ceiling? m.appraisal (candidates.map .int) =
      Json.ofInt? (ShadowPrice.ceiling? m candidates) := by
  have each := Appraisal.mapM_lifted Json.int candidates fun i =>
    Appraisal.marginal?_appraisal m lengths i 0
  have all : (candidates.map Json.int).mapM (fun i => m.appraisal.marginal? i (.int 0)) =
      candidates.mapM fun i => m.appraisal.marginal? (.int i) (.int 0) := List.mapM_map
  simp only [ceiling?, ShadowPrice.ceiling?, all, each, bind, Except.bind]
  cases candidates.mapM fun i => m.marginal? i 0 with
  | error fault => rfl
  | ok first =>
    cases first with
    | nil => rfl
    | cons top rest =>
      simp only [Except.map, mapError_ok, List.map_cons, foldlM_larger?, Json.add?_int,
        Json.larger?_int, pure, Except.pure, ShadowPrice.greatest?, Json.ofInt?_ok]

theorem exceeds?_stated (b : ShadowPrice.Bracket) (bankroll : Int) :
    b.stated.exceeds? (.int bankroll) = .ok (!b.fits bankroll) := by
  have total : b.stated.upper.total? = .ok (.int b.upper.total) := Entries.total?_stakes b.upper
  have order : decide (b.upper.total > bankroll) = !decide (b.upper.total ≤ bankroll) := by
    by_cases h : b.upper.total ≤ bankroll
    · simp [h, Int.not_lt.2 h]
    · simp [h, Int.not_le.1 h]
  simp only [Bracket.exceeds?, total, bind, Except.bind, Json.relate?_int, Relation.ofInts,
    ShadowPrice.Bracket.fits, order]

def Agrees (stated : Json → Except Failure Entries) (demand : Int → Except Fault Stakes) : Prop :=
  ∀ price, stated (.int price) = ofStakes? (demand price)

theorem widen?_stated {stated : Json → Except Failure Entries} {demand : Int → Except Fault Stakes}
    (agrees : Agrees stated demand) (bankroll : Int) (n : Nat) (b : ShadowPrice.Bracket) :
    widen? stated (.int bankroll) n b.stated =
      ((ShadowPrice.widen? demand bankroll n b).map ShadowPrice.Bracket.stated).mapError .fault := by
  induction n generalizing b with
  | zero => rfl
  | succ n ih =>
    simp only [widen?, ShadowPrice.widen?, exceeds?_stated, bind, Except.bind]
    cases b.fits bankroll with
    | true => rfl
    | false =>
      have doubled : b.stated.high.multiply? (.int 2) = .ok (.int (b.high * 2)) := rfl
      simp only [Bool.not_false, if_true, doubled, agrees (b.high * 2), Bool.false_eq_true, if_false]
      cases demand (b.high * 2) with
      | error fault => rfl
      | ok upper => exact ih ⟨b.high, b.high * 2, upper⟩

theorem closed?_stated (b : ShadowPrice.Bracket) (t : Terms) :
    b.stated.closed? t.budget = .ok (b.closed t) := by
  have total : b.stated.upper.total? = .ok (.int b.upper.total) := Entries.total?_stakes b.upper
  have width : b.stated.high.subtract? b.stated.low = .ok (.int (b.high - b.low)) := rfl
  simp only [Bracket.closed?, total, width, Terms.budget, Json.subtract?_int, Json.relate?_int,
    Relation.ofInts, bind, Except.bind, pure, Except.pure, ShadowPrice.Bracket.closed]
  cases decide (t.bankroll - b.upper.total < t.tick) <;> simp

theorem halve?_stated {stated : Json → Except Failure Entries} {demand : Int → Except Fault Stakes}
    (agrees : Agrees stated demand) (bankroll : Int) (b : ShadowPrice.Bracket) :
    b.stated.halve? stated (.int bankroll) =
      ((b.halve? demand bankroll).map ShadowPrice.Bracket.stated).mapError .fault := by
  have sum : b.stated.low.add? b.stated.high = .ok (.int (b.low + b.high)) := rfl
  simp only [Bracket.halve?, ShadowPrice.Bracket.halve?, sum, Json.floorDivide?_int,
    divide?_pos (show (0 : Int) < 2 by decide), Json.ofInt?_ok, agrees ((b.low + b.high) / 2), bind,
    Except.bind]
  cases demand ((b.low + b.high) / 2) with
  | error fault => rfl
  | ok trial =>
    have total : Entries.total? (trial.map Entries.ofStake) = .ok (.int trial.total) :=
      Entries.total?_stakes trial
    simp only [ofStakes?, Except.map, mapError_ok, total, Json.relate?_int, Relation.ofInts, pure,
      Except.pure]
    by_cases more : trial.total > bankroll
    · simp only [more, decide_true, if_true]
      rfl
    · simp only [more, decide_false, Bool.false_eq_true, if_false]
      rfl

-- A bracket no wider than a power of two is closed after as many halvings.
theorem narrow?_stated {stated : Json → Except Failure Entries} {demand : Int → Except Fault Stakes}
    (agrees : Agrees stated demand) (t : Terms) (n steps : Nat) (b : ShadowPrice.Bracket)
    (width : b.high - b.low ≤ (Nat.pow 2 n : Nat)) :
    narrow? stated t.budget (n + 1) steps b.stated =
      ((ShadowPrice.narrow? demand t (t.iterations - steps).toNat b).map fun r =>
        (r.1.stated, steps + r.2, r.1.closed t)).mapError .fault := by
  induction n generalizing steps b with
  | zero =>
    have closed : b.closed t = true := by
      have near : b.high - b.low ≤ 1 := width
      simp [ShadowPrice.Bracket.closed, near]
    simp only [narrow?, closed?_stated, closed, bind, Except.bind]
    cases (t.iterations - steps).toNat with
    | zero => simp [ShadowPrice.narrow?, closed, Except.map, mapError_ok, pure, Except.pure]
    | succ k => simp [ShadowPrice.narrow?, closed, Except.map, mapError_ok, pure, Except.pure]
  | succ n ih =>
    rw [narrow?]
    simp only [closed?_stated, bind, Except.bind]
    cases closed : b.closed t with
    | true =>
      cases (t.iterations - steps).toNat with
      | zero => simp [ShadowPrice.narrow?, closed, Except.map, mapError_ok, pure, Except.pure]
      | succ k => simp [ShadowPrice.narrow?, closed, Except.map, mapError_ok, pure, Except.pure]
    | false =>
      have spent : Json.relate? .atLeast (.int steps) t.budget.iterations =
          .ok (decide ((steps : Int) ≥ t.iterations)) := rfl
      simp only [Bool.false_eq_true, if_false, spent]
      by_cases exhausted : (steps : Int) ≥ t.iterations
      · have used : (t.iterations - steps).toNat = 0 := by omega
        simp [exhausted, used, ShadowPrice.narrow?, closed, Except.map, mapError_ok, pure, Except.pure]
      · obtain ⟨k, left⟩ : ∃ k, (t.iterations - steps).toNat = k + 1 :=
          ⟨(t.iterations - steps).toNat - 1, by omega⟩
        have fewer : (t.iterations - (steps + 1 : Nat)).toNat = k := by omega
        have bankroll : t.budget.bankroll = .int t.bankroll := rfl
        simp only [exhausted, decide_false, Bool.false_eq_true, if_false, left, ShadowPrice.narrow?,
          closed, bankroll, halve?_stated agrees, bind, Except.bind]
        cases halved : b.halve? demand t.bankroll with
        | error fault => rfl
        | ok next =>
          have half : next.high - next.low ≤ (Nat.pow 2 n : Nat) := by
            have double : (Nat.pow 2 (n + 1) : Nat) = Nat.pow 2 n * 2 := rfl
            rw [double] at width
            generalize Nat.pow 2 n = bound at *
            obtain ⟨trial, _, run⟩ := bind_ok halved
            cases run
            split <;> simp only <;> omega
          have rest := ih (steps + 1) next half
          rw [fewer] at rest
          simp only [Except.map, mapError_ok]
          rw [rest]
          cases ShadowPrice.narrow? demand t k next with
          | error fault => rfl
          | ok r =>
            simp only [Except.map, mapError_ok, pure, Except.pure]
            rw [show steps + 1 + r.2 = steps + (r.2 + 1) by omega]

theorem halvings_enough (b : ShadowPrice.Bracket) :
    ∃ n, b.stated.halvings = n + 1 ∧ b.high - b.low ≤ (Nat.pow 2 n : Nat) := by
  refine ⟨(b.high - b.low).toNat.log2 + 1, rfl, ?_⟩
  have bits : (b.high - b.low).toNat < Nat.pow 2 ((b.high - b.low).toNat.log2 + 1) :=
    Nat.lt_log2_self
  omega

def Distinct (demand : Int → Except Fault Stakes) : Prop :=
  ∀ price s, demand price = .ok s → s.numbers.Nodup

theorem widen?_distinct {demand : Int → Except Fault Stakes} (distinct : Distinct demand)
    {bankroll : Int} {n : Nat} {b last : ShadowPrice.Bracket} (start : b.upper.numbers.Nodup)
    (run : ShadowPrice.widen? demand bankroll n b = .ok last) : last.upper.numbers.Nodup := by
  induction n generalizing b with
  | zero => cases run; exact start
  | succ n ih =>
    unfold ShadowPrice.widen? at run
    split at run
    · cases run; exact start
    · obtain ⟨upper, demanded, run⟩ := bind_ok run
      exact ih (distinct _ _ demanded) run

theorem narrow?_distinct {demand : Int → Except Fault Stakes} (distinct : Distinct demand)
    {t : Terms} {n : Nat} {b : ShadowPrice.Bracket} {r : ShadowPrice.Bracket × Nat}
    (start : b.upper.numbers.Nodup) (run : ShadowPrice.narrow? demand t n b = .ok r) :
    r.1.upper.numbers.Nodup := by
  induction n generalizing b r with
  | zero => cases run; exact start
  | succ n ih =>
    unfold ShadowPrice.narrow? at run
    split at run
    · cases run; exact start
    · obtain ⟨next, halved, run⟩ := bind_ok run
      obtain ⟨rest, narrowed, run⟩ := bind_ok run
      cases run
      obtain ⟨trial, demanded, halved⟩ := bind_ok halved
      have kept : next.upper.numbers.Nodup := by
        cases halved
        split
        · exact start
        · exact distinct _ _ demanded
      have final : rest.1.upper.numbers.Nodup := ih kept narrowed
      exact final

theorem of?_solve (m : Model) (lengths : m.prizes.length = m.crosses.length)
    (candidates : List Int) (t : Terms) :
    of? m.appraisal (candidates.map .int) t.budget =
      ((ShadowPrice.solve? m candidates t).map Solution.allotment).mapError .fault := by
  have agrees : Agrees (demand? m.appraisal t.budget.cap (Allotment.distinct (candidates.map .int)))
      (ShadowPrice.demand? m t.cap candidates.eraseDups) := by
    intro price
    rw [distinct_int]
    exact demand?_appraisal m lengths t.cap candidates.eraseDups price
  have unique : Distinct (ShadowPrice.demand? m t.cap candidates.eraseDups) := by
    intro price s run
    rw [demand?_numbers run]
    exact eraseDups_nodup candidates
  have bankroll : t.budget.bankroll = .int t.bankroll := rfl
  by_cases nobody : candidates = []
  · subst nobody
    simp [of?, ShadowPrice.solve?, pure, Except.pure, Except.map, mapError_ok, Solution.allotment]
  · have somebody : (candidates.map Json.int).isEmpty = false := by
      cases candidates with
      | nil => exact absurd rfl nobody
      | cons i rest => rfl
    by_cases idle : t.bankroll ≤ 0
    · simp [of?, ShadowPrice.solve?, somebody, idle, bankroll, Relation.ofInts, bind, Except.bind, pure,
        Except.pure, Except.map, mapError_ok, Solution.allotment]
    · simp only [of?, ShadowPrice.solve?, somebody, nobody, idle, bankroll, Json.relate?_int,
        Relation.ofInts, agrees 0, or_self, if_false, Bool.false_eq_true, decide_false, bind,
        Except.bind]
      cases first : ShadowPrice.demand? m t.cap candidates.eraseDups 0 with
      | error fault => rfl
      | ok all =>
        have most : Entries.total? (all.map Entries.ofStake) = .ok (.int all.total) :=
          Entries.total?_stakes all
        simp only [ofStakes?, Except.map, mapError_ok, most, Json.relate?_int, Relation.ofInts]
        by_cases enough : all.total ≤ t.bankroll
        · simp only [enough, decide_true, if_true, funded?_stakes (unique _ _ first), pure,
            Except.pure, mapError_ok]
          rfl
        · simp only [enough, decide_false, Bool.false_eq_true, if_false,
            ceiling?_appraisal m lengths]
          cases ShadowPrice.ceiling? m candidates with
          | error fault => rfl
          | ok top =>
            simp only [Json.ofInt?_ok, agrees top]
            cases demanded : ShadowPrice.demand? m t.cap candidates.eraseDups top with
            | error fault => rfl
            | ok upper =>
              have widened : widen?
                  (demand? m.appraisal t.budget.cap (Allotment.distinct (candidates.map .int)))
                  (.int t.bankroll) ShadowPrice.doublings
                  ⟨.int 0, .int top, upper.map Entries.ofStake⟩ = _ :=
                widen?_stated agrees t.bankroll ShadowPrice.doublings ⟨0, top, upper⟩
              simp only [ofStakes?, Except.map, mapError_ok, widened]
              cases wide : ShadowPrice.widen? (ShadowPrice.demand? m t.cap candidates.eraseDups)
                  t.bankroll ShadowPrice.doublings ⟨0, top, upper⟩ with
              | error fault => rfl
              | ok start =>
                have fresh := widen?_distinct unique (unique _ _ demanded) wide
                obtain ⟨n, halvings, width⟩ := halvings_enough start
                have narrowed := narrow?_stated agrees t n 0 start width
                rw [Int.natCast_zero, Int.sub_zero] at narrowed
                simp only [mapError_ok, exceeds?_stated, halvings]
                cases start.fits t.bankroll with
                | false => rfl
                | true =>
                  simp only [Bool.not_true, Bool.false_eq_true, if_false, if_true, narrowed]
                  cases done : ShadowPrice.narrow?
                      (ShadowPrice.demand? m t.cap candidates.eraseDups) t t.iterations.toNat
                      start with
                  | error fault => rfl
                  | ok r =>
                    have final := narrow?_distinct unique fresh done
                    have funded := funded?_stakes final
                    have total : r.1.stated.upper.total? = .ok (.int r.1.upper.total) :=
                      Entries.total?_stakes r.1.upper
                    have stakes : funded? r.1.stated.upper = _ := funded
                    simp only [Except.map, mapError_ok, stakes, total, pure, Except.pure,
                      Nat.zero_add]
                    rfl

end Allotment
end Parimutuel
