import Parimutuel.Proofs.Acceptance
import Parimutuel.Proofs.Search.Falling

namespace Parimutuel.ShadowPrice

variable {t : Terms} {richer : Int}

namespace Window

variable {total : Int → Int} {w : Window}

theorem narrow_inside {n : Nat} (start : w.Straddles total t.bankroll) :
    w.low ≤ (w.narrow total t n).1.low ∧ (w.narrow total t n).1.high ≤ w.high := by
  induction n generalizing w with
  | zero => exact ⟨Int.le_refl _, Int.le_refl _⟩
  | succ n ih =>
    cases opened : w.closed total t with
    | true =>
      rw [narrow_of_closed opened]
      exact ⟨Int.le_refl _, Int.le_refl _⟩
    | false =>
      rw [narrow_of_open opened]
      obtain ⟨low, high⟩ := ih (halve_straddles start opened)
      have order := start.low_lt
      have half : w.low ≤ (w.halve total t.bankroll).low ∧ (w.halve total t.bankroll).high ≤ w.high := by
        unfold halve
        split <;> dsimp only <;> omega
      exact ⟨Int.le_trans half.1 low, Int.le_trans high half.2⟩

theorem open_of_poorer (order : t.bankroll ≤ richer) (opened : w.closed total t = false) :
    w.closed total { t with bankroll := richer } = false := by
  simp only [closed, Bool.or_eq_false_iff, decide_eq_false_iff_not] at opened ⊢
  exact ⟨by omega, opened.2⟩

theorem Straddles.poorer (start : w.Straddles total richer) (order : t.bankroll ≤ richer) :
    w.Straddles total t.bankroll :=
  ⟨start.low_nonneg, start.low_lt, Int.lt_of_le_of_lt order start.exceeded⟩

theorem narrow_high_le (order : t.bankroll ≤ richer) (n : Nat) (start : w.Straddles total richer) :
    (w.narrow total { t with bankroll := richer } n).1.high ≤ (w.narrow total t n).1.high := by
  induction n generalizing w with
  | zero => exact Int.le_refl _
  | succ n ih =>
    cases opened : w.closed total t with
    | true =>
      rw [narrow_of_closed opened]
      exact (narrow_inside (t := { t with bankroll := richer }) start).2
    | false =>
      have rich := open_of_poorer order opened
      have above := halve_straddles (t := { t with bankroll := richer }) start rich
      have below := halve_straddles (start.poorer order) opened
      rw [narrow_of_open opened, narrow_of_open rich]
      by_cases suits : total ((w.low + w.high) / 2) ≤ richer
      · by_cases both : total ((w.low + w.high) / 2) ≤ t.bankroll
        · have same : w.halve total t.bankroll = w.halve total richer := by
            rw [halve, halve, if_neg (Int.not_lt.2 both), if_neg (Int.not_lt.2 suits)]
          rw [same]
          exact ih above
        · -- the two searches part here, with the middle price between them
          have upper := (narrow_inside (n := n) below).1
          have apart := (narrow_straddles (n := n) below).low_lt
          have lower := (narrow_inside (t := { t with bankroll := richer }) (n := n) above).2
          have left : (w.halve total t.bankroll).low = (w.low + w.high) / 2 := by
            rw [halve, if_pos (Int.not_le.1 both)]
          have right : (w.halve total richer).high = (w.low + w.high) / 2 := by
            rw [halve, if_neg (Int.not_lt.2 suits)]
          dsimp only at lower ⊢
          omega
      · have same : w.halve total t.bankroll = w.halve total richer := by
          rw [halve, halve, if_pos (Int.not_le.1 suits), if_pos (by omega)]
        rw [same]
        exact ih above

end Window

variable {m : Model} {candidates : List Int}

theorem solution_taken (sound : m.Sound) (inside : ∀ i ∈ candidates, i ∈ options) (cap : 0 ≤ t.cap)
    (somebody : candidates ≠ []) (bankroll : 0 < t.bankroll) :
    Taken m candidates t (solution m candidates t) := by
  by_cases enough : spending m t.cap candidates.eraseDups 0 ≤ t.bankroll
  · rw [solution_enough somebody bankroll enough]
    exact ⟨Int.le_refl 0, rfl, rfl, enough⟩
  · have exceeded := Int.not_le.1 enough
    have last := settled_straddles (m := m) exceeded
    have low := last.low_nonneg
    have order := last.low_lt
    rw [solution_searched sound inside cap somebody bankroll exceeded]
    refine ⟨?_, rfl, rfl, settled_fits sound inside cap (Int.le_of_lt bankroll)⟩
    dsimp only
    omega

theorem solution_price_le (sound : m.Sound) (inside : ∀ i ∈ candidates, i ∈ options) (cap : 0 ≤ t.cap)
    (somebody : candidates ≠ []) (bankroll : 0 < t.bankroll) (order : t.bankroll ≤ richer) :
    (solution m candidates { t with bankroll := richer }).price ≤ (solution m candidates t).price := by
  have rich : 0 < richer := Int.lt_of_lt_of_le bankroll order
  by_cases enough : spending m t.cap candidates.eraseDups 0 ≤ richer
  · rw [solution_enough (t := { t with bankroll := richer }) somebody rich enough]
    exact (solution_taken sound inside cap somebody bankroll).price_nonneg
  · have exceeded := Int.not_le.1 enough
    have start : Window.Straddles (spending m t.cap candidates.eraseDups) richer
        ⟨0, ceiling m candidates⟩ := ⟨Int.le_refl 0, ceiling_pos m candidates, exceeded⟩
    rw [solution_searched (t := { t with bankroll := richer }) sound inside cap somebody rich exceeded,
      solution_searched sound inside cap somebody bankroll (Int.lt_of_le_of_lt order exceeded)]
    dsimp only
    rw [settled_narrow sound inside cap (Int.le_of_lt bankroll),
      settled_narrow (t := { t with bankroll := richer }) sound inside cap (Int.le_of_lt rich)]
    exact Window.narrow_high_le order t.iterations.toNat start

theorem solution_amount_nonneg (m : Model) (candidates : List Int) (t : Terms) (i : Int) :
    0 ≤ (solution m candidates t).stakes.amount i :=
  Stakes.amount_nonneg (fun _ member => Int.le_of_lt (solution_mem member).2.1) i

theorem solution_amount_le (sound : m.Sound) (inside : ∀ i ∈ candidates, i ∈ options) (cap : 0 ≤ t.cap)
    (order : t.bankroll ≤ richer) (i : Int) :
    (solution m candidates t).stakes.amount i ≤
      (solution m candidates { t with bankroll := richer }).stakes.amount i := by
  by_cases staked : (solution m candidates t).stakes.amount i = 0
  · rw [staked]
    exact solution_amount_nonneg m candidates _ i
  · have member := (solution_mem (Stakes.mem_of_amount staked)).1
    have somebody : candidates ≠ [] := List.ne_nil_of_mem member
    have bankroll : 0 < t.bankroll := by
      apply Int.not_le.1
      intro broke
      rw [solution, if_pos (.inr broke)] at staked
      exact staked rfl
    have less := solution_taken sound inside cap somebody bankroll
    have more := solution_taken (t := { t with bankroll := richer }) sound inside cap somebody
      (Int.lt_of_lt_of_le bankroll order)
    rw [taken_amount cap less member, taken_amount (t := { t with bankroll := richer }) cap more member]
    exact wish_antitone sound (inside i member)
      (solution_price_le sound inside cap somebody bankroll order)

theorem solution_aggregate_mono (sound : m.Sound) (inside : ∀ i ∈ candidates, i ∈ options)
    (cap : 0 ≤ t.cap) (order : t.bankroll ≤ richer) :
    (solution m candidates t).aggregate ≤
      (solution m candidates { t with bankroll := richer }).aggregate := by
  rw [← solution_total m candidates cap, Stakes.total_eq_sum (solution_placed t inside),
    ← solution_total (t := { t with bankroll := richer }) m candidates cap,
    Stakes.total_eq_sum (solution_placed { t with bankroll := richer } inside)]
  exact Finset.sum_le_sum fun i _ => solution_amount_le sound inside cap order i

theorem solution_nobody (m : Model) (t : Terms) : solution m [] t = { ending := .idle } := by
  simp [solution]

theorem solve?_richer {board : Board} {strategy : Strategy} {holdings : Holdings}
    (valid : board.Valid) (unitValue : 0 ≤ strategy.unitValue)
    (width : holdings.length = optionCount) (held : ∀ x ∈ holdings, 0 ≤ x)
    (inside : ∀ i ∈ candidates, i ∈ options) (cap : 1 ≤ t.cap) (bankroll : 1 ≤ t.bankroll)
    (order : t.bankroll ≤ richer) :
    ∃ (m : Model) (poor rich : Solution), Model.price? board strategy holdings = .ok m ∧
      solve? m candidates t = .ok poor ∧
      solve? m candidates { t with bankroll := richer } = .ok rich ∧
      rich.price ≤ poor.price ∧ (∀ i, poor.stakes.amount i ≤ rich.stakes.amount i) ∧
      poor.aggregate ≤ rich.aggregate := by
  have sound := Model.priced_sound valid unitValue width held
  have least : 0 ≤ t.cap := Int.le_trans Int.one_nonneg cap
  refine ⟨_, _, _, Model.price?_ok strategy valid width, sound.solve? inside t,
    sound.solve? inside { t with bankroll := richer }, ?_,
    solution_amount_le sound inside least order, solution_aggregate_mono sound inside least order⟩
  cases candidates with
  | nil => simp [solution_nobody]
  | cons i rest =>
    exact solution_price_le sound inside least (List.cons_ne_nil i rest) bankroll order

-- The poorer one is stopped after a single halving, and the richer one has everything granted at once.
theorem solve?_richer_stopped :
    ∃ (m : Model) (poor rich : Solution),
      Model.price? ⟨options.map (100 * ·), List.replicate 25 0, 1090, 1, true, 7⟩
        ⟨0, 1, 1, 1, 800000000, 2, 60, 2⟩ (options.map (3 * ·)) = .ok m ∧
      solve? m [7, 2, 1, 7] ⟨50, 400, 10, 1⟩ = .ok poor ∧
      solve? m [7, 2, 1, 7] ⟨5000, 400, 10, 1⟩ = .ok rich ∧
      rich.price ≤ poor.price ∧ poor.stakes.amount 7 ≤ rich.stakes.amount 7 ∧
      poor.aggregate ≤ rich.aggregate := by
  obtain ⟨m, poor, rich, pricing, first, second, price, amounts, aggregate⟩ :=
    @solve?_richer ⟨50, 400, 10, 1⟩ 5000 [7, 2, 1, 7]
      ⟨options.map (100 * ·), List.replicate 25 0, 1090, 1, true, 7⟩
      ⟨0, 1, 1, 1, 800000000, 2, 60, 2⟩ (options.map (3 * ·))
      (by decide) (by decide) (by decide) (by decide) (by decide) (by decide) (by decide) (by decide)
  exact ⟨m, poor, rich, pricing, first, second, price, amounts 7, aggregate⟩

end Parimutuel.ShadowPrice
