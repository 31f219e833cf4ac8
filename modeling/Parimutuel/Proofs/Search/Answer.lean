import Mathlib.Algebra.Order.Floor.Ring
import Mathlib.Algebra.Order.Floor.Semiring
import Mathlib.Data.Rat.Floor
import Parimutuel.Proofs.Acceptance
import Parimutuel.Proofs.Search.Falling

namespace Parimutuel.ShadowPrice

namespace Window

variable {total : Int → Int} {t : Terms}

theorem halve_width (w : Window) (bankroll : Int) :
    2 * ((w.halve total bankroll).high - (w.halve total bankroll).low - 1) ≤ w.high - w.low - 1 := by
  unfold halve
  split <;> dsimp only <;> omega

theorem narrow_open {n : Nat} {w : Window} (opened : (w.narrow total t n).1.closed total t = false) :
    (w.narrow total t n).2 = n ∧
      ((w.narrow total t n).1.high - (w.narrow total t n).1.low - 1) * 2 ^ n ≤ w.high - w.low - 1 := by
  induction n generalizing w with
  | zero =>
    rw [pow_zero, mul_one]
    exact ⟨rfl, Int.le_refl _⟩
  | succ n ih =>
    cases start : w.closed total t with
    | true =>
      rw [narrow_of_closed start, start] at opened
      cases opened
    | false =>
      rw [narrow_of_open start] at opened ⊢
      obtain ⟨steps, width⟩ := ih opened
      have half := @halve_width total w t.bankroll
      refine ⟨congrArg Nat.succ steps, ?_⟩
      rw [pow_succ, ← mul_assoc]
      dsimp only at width ⊢
      omega

theorem closed_iff {w : Window} :
    w.closed total t = true ↔ t.bankroll - total w.high < t.tick ∨ w.high - w.low ≤ 1 := by
  simp [closed]

end Window

-- `total` is what all candidates together take at a price, and `top` the price at which the search
-- starts.
structure Answer (total : Int → Int) (top : Int) (t : Terms) (r : Solution) : Prop where
  aggregate : r.aggregate = total r.price
  within : r.aggregate ≤ t.bankroll
  free : r.price = 0 ↔ total 0 ≤ t.bankroll
  converged : r.converged = true → r.price = 0 ∨ t.bankroll - r.aggregate < t.tick ∨
    IsLeast {price | 0 ≤ price ∧ total price ≤ t.bankroll} r.price
  stopped : r.converged = false → r.iterations = t.iterations ∧ t.tick ≤ t.bankroll - r.aggregate ∧
    ∃ low, 0 ≤ low ∧ low ≤ r.price - 2 ∧ t.bankroll < total low ∧
      r.price - low ≤ ⌈(top : ℚ) / 2 ^ t.iterations.toNat⌉

variable {m : Model} {candidates : List Int} {t : Terms}

-- The lower price of a closed window asks for too much, and so does every price below it.
theorem settled_least (sound : m.Sound) (inside : ∀ i ∈ candidates, i ∈ options)
    (exceeded : t.bankroll < spending m t.cap candidates.eraseDups 0)
    (fits : spending m t.cap candidates.eraseDups (settled m candidates t).1.high ≤ t.bankroll)
    (neighbours : (settled m candidates t).1.high - (settled m candidates t).1.low ≤ 1) :
    IsLeast {price | 0 ≤ price ∧ spending m t.cap candidates.eraseDups price ≤ t.bankroll}
      (settled m candidates t).1.high := by
  have last := settled_straddles (m := m) exceeded
  have low := last.low_nonneg
  have order := last.low_lt
  refine ⟨⟨by omega, fits⟩, ?_⟩
  rintro price ⟨_, enough⟩
  apply Int.not_lt.1
  intro cheaper
  have below : price ≤ (settled m candidates t).1.low := by omega
  have more : spending m t.cap candidates.eraseDups (settled m candidates t).1.low ≤
      spending m t.cap candidates.eraseDups price := spending_antitone sound inside below
  have beyond := last.exceeded
  omega

-- A window that is still open was halved as often as it may be.
theorem settled_width (sound : m.Sound) (inside : ∀ i ∈ candidates, i ∈ options) (cap : 0 ≤ t.cap)
    (bankroll : 0 ≤ t.bankroll)
    (opened : (settled m candidates t).1.closed (spending m t.cap candidates.eraseDups) t = false) :
    (settled m candidates t).2 = t.iterations.toNat ∧
      (settled m candidates t).1.high - (settled m candidates t).1.low ≤
        ⌈(ceiling m candidates : ℚ) / 2 ^ t.iterations.toNat⌉ := by
  have narrowed := settled_narrow sound inside cap bankroll
  rw [narrowed] at opened
  obtain ⟨steps, width⟩ := Window.narrow_open opened
  rw [← narrowed] at steps width
  have strict : ((settled m candidates t).1.high - (settled m candidates t).1.low - 1) *
      2 ^ t.iterations.toNat < ceiling m candidates := by
    dsimp only at width
    omega
  refine ⟨steps, ?_⟩
  rw [Int.le_ceil_iff, lt_div_iff₀ (by positivity)]
  exact_mod_cast strict

theorem solution_answer (sound : m.Sound) (inside : ∀ i ∈ candidates, i ∈ options)
    (somebody : candidates ≠ []) (bankroll : 0 < t.bankroll) (cap : 0 ≤ t.cap)
    (iterations : 0 ≤ t.iterations) :
    Answer (spending m t.cap candidates.eraseDups) (ceiling m candidates) t
      (solution m candidates t) := by
  by_cases enough : spending m t.cap candidates.eraseDups 0 ≤ t.bankroll
  · rw [solution_enough somebody bankroll enough]
    exact ⟨rfl, enough, iff_of_true rfl enough, fun _ => .inl rfl, fun stopped => by cases stopped⟩
  · have exceeded := Int.not_le.1 enough
    have last := settled_straddles (m := m) exceeded
    have low := last.low_nonneg
    have order := last.low_lt
    have fits := settled_fits sound inside cap (Int.le_of_lt bankroll)
    rw [solution_searched sound inside cap somebody bankroll exceeded]
    refine ⟨rfl, fits, iff_of_false ?_ enough, ?_, ?_⟩
    · dsimp only
      omega
    · intro closed
      rcases Window.closed_iff.1 closed with left | neighbours
      · exact .inr (.inl left)
      · exact .inr (.inr (settled_least sound inside exceeded fits neighbours))
    · intro stopped
      obtain ⟨steps, width⟩ := settled_width sound inside cap (Int.le_of_lt bankroll) stopped
      have opened := mt Window.closed_iff.2 (ne_true_of_eq_false stopped)
      rw [not_or, Int.not_lt, Int.not_le] at opened
      have apart : (settled m candidates t).1.low ≤ (settled m candidates t).1.high - 2 := by omega
      refine ⟨?_, opened.1, (settled m candidates t).1.low, low, apart, last.exceeded, width⟩
      dsimp only
      rw [steps]
      exact Int.toNat_of_nonneg iterations

theorem ceiling_eq_sup' (m : Model) (somebody : candidates ≠ []) :
    ceiling m candidates = max 1 (candidates.toFinset.sup' ((List.toFinset_nonempty_iff _).2 somebody)
      (fun i => (m.quoteAt i).marginal 0) + 1) := by
  obtain ⟨positive, above⟩ := (ceiling_le_iff m candidates _).1 (Int.le_refl _)
  apply Int.le_antisymm
  · refine (ceiling_le_iff m candidates _).2 ⟨Int.le_max_left 1 _, ?_⟩
    intro i member
    have first := Finset.le_sup' (fun i => (m.quoteAt i).marginal 0) (List.mem_toFinset.2 member)
    exact Int.le_trans (Int.add_le_add_right first 1) (Int.le_max_right 1 _)
  · refine Int.max_le.2 ⟨positive, Int.add_le_of_le_sub_right ?_⟩
    apply Finset.sup'_le
    intro i member
    have bound := above i (List.mem_toFinset.1 member)
    omega

theorem solve?_answer {board : Board} {strategy : Strategy} {holdings : Holdings}
    (valid : board.Valid) (unitValue : 0 ≤ strategy.unitValue)
    (width : holdings.length = optionCount) (held : ∀ x ∈ holdings, 0 ≤ x)
    (inside : ∀ i ∈ candidates, i ∈ options) (somebody : candidates ≠ [])
    (bankroll : 1 ≤ t.bankroll) (cap : 1 ≤ t.cap) (iterations : 0 ≤ t.iterations) :
    ∃ (m : Model) (r : Solution) (best : Int → Int → Int) (first : Int → Int),
      Model.price? board strategy holdings = .ok m ∧ solve? m candidates t = .ok r ∧
      (∀ i ∈ candidates, ∀ price, m.optimum? i price = .ok (best i price)) ∧
      (∀ i ∈ candidates, m.marginal? i 0 = .ok (first i)) ∧
      Answer (fun price => ∑ i ∈ candidates.toFinset, min (best i price) t.cap)
        (max 1 (candidates.toFinset.sup' ((List.toFinset_nonempty_iff _).2 somebody) first + 1)) t r := by
  have sound := Model.priced_sound valid unitValue width held
  have answer := solution_answer sound inside somebody bankroll (by omega) iterations
  have total : spending (Model.priced board strategy holdings) t.cap candidates.eraseDups =
      fun price => ∑ i ∈ candidates.toFinset,
        min (((Model.priced board strategy holdings).quoteAt i).peak price) t.cap :=
    funext fun price => spending_eq_sum _ t.cap candidates price
  rw [total, ceiling_eq_sup' _ somebody] at answer
  exact ⟨_, _, _, _, Model.price?_ok strategy valid width, sound.solve? inside t,
    fun i member price => sound.optimum? (inside i member) price,
    fun i member => sound.marginal? (inside i member) 0, answer⟩

-- One halving for a bankroll that binds: the answer says how often it was halved and what is left.
theorem solve?_answer_stopped :
    ∃ (m : Model) (r : Solution),
      Model.price? ⟨options.map (100 * ·), List.replicate 25 0, 1090, 1, true, 7⟩
        ⟨0, 1, 1, 1, 800000000, 2, 60, 2⟩ (options.map (3 * ·)) = .ok m ∧
      solve? m [7, 2, 1, 7] ⟨50, 400, 10, 1⟩ = .ok r ∧ r.aggregate ≤ 50 ∧
      r.converged = false ∧ r.iterations = (1 : Int) ∧ 10 ≤ 50 - r.aggregate := by
  obtain ⟨m, r, _, _, pricing, run, _, _, answer⟩ := @solve?_answer [7, 2, 1, 7] ⟨50, 400, 10, 1⟩
    ⟨options.map (100 * ·), List.replicate 25 0, 1090, 1, true, 7⟩
    ⟨0, 1, 1, 1, 800000000, 2, 60, 2⟩ (options.map (3 * ·))
    (by decide) (by decide) (by decide) (by decide) (by decide) (by decide) (by decide) (by decide)
    (by decide)
  have ends : ((Model.price? ⟨options.map (100 * ·), List.replicate 25 0, 1090, 1, true, 7⟩
      ⟨0, 1, 1, 1, 800000000, 2, 60, 2⟩ (options.map (3 * ·)) >>= fun m =>
        solve? m [7, 2, 1, 7] ⟨50, 400, 10, 1⟩).toOption.map Solution.converged) = some false := by
    decide +kernel
  have stopped : r.converged = false := by
    rw [pricing] at ends
    change (solve? m [7, 2, 1, 7] ⟨50, 400, 10, 1⟩).toOption.map Solution.converged = some false at ends
    rw [run] at ends
    exact Option.some.inj ends
  obtain ⟨often, left, _⟩ := answer.stopped stopped
  exact ⟨m, r, pricing, run, answer.within, stopped, often, left⟩

end Parimutuel.ShadowPrice
