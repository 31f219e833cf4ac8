import Parimutuel.Proofs.Search.Answer

namespace Parimutuel.ShadowPrice

namespace Window

variable {total : Int → Int} {t : Terms} {w : Window}

theorem narrow_steps (n : Nat) (w : Window) : (w.narrow total t n).2 ≤ n := by
  induction n generalizing w with
  | zero => exact Nat.le_refl 0
  | succ n ih =>
    cases opened : w.closed total t with
    | true =>
      rw [narrow_of_closed opened]
      exact Nat.zero_le _
    | false =>
      rw [narrow_of_open opened]
      exact Nat.succ_le_succ (ih _)

theorem narrow_closed {n : Nat} (narrow : w.high - w.low ≤ 2 ^ n) :
    (w.narrow total t n).1.closed total t = true := by
  cases closed : (w.narrow total t n).1.closed total t with
  | true => rfl
  | false =>
    obtain ⟨_, width⟩ := narrow_open closed
    have wide : 1 ≤ (w.narrow total t n).1.high - (w.narrow total t n).1.low - 1 := by
      have apart := mt closed_iff.2 (ne_true_of_eq_false closed)
      omega
    have power : (0 : Int) ≤ 2 ^ n := pow_nonneg (by decide) n
    have doubled := Int.mul_le_mul_of_nonneg_right wide power
    omega

end Window

-- A bracket whose higher price fits is not widened, and nobody is asked for a demand.
theorem widen?_of_fits {demand : Int → Except Fault Stakes} {bankroll : Int} {b : Bracket}
    (fits : b.upper.total ≤ bankroll) (n : Nat) : widen? demand bankroll n b = .ok b := by
  cases n with
  | zero => rfl
  | succ n => exact if_pos (decide_eq_true fits)

variable {m : Model} {candidates : List Int} {t : Terms}

-- Whoever asks with money gets an answer, and no answer took more halvings than allowed.
theorem solution_found (sound : m.Sound) (inside : ∀ i ∈ candidates, i ∈ options) (cap : 0 ≤ t.cap)
    (somebody : candidates ≠ []) (bankroll : 0 < t.bankroll) :
    (solution m candidates t).ending ≠ .unbracketed ∧
      (solution m candidates t).iterations ≤ t.iterations.toNat := by
  by_cases enough : spending m t.cap candidates.eraseDups 0 ≤ t.bankroll
  · rw [solution_enough somebody bankroll enough]
    exact ⟨nofun, Nat.zero_le _⟩
  · rw [solution_searched sound inside cap somebody bankroll (Int.not_le.1 enough)]
    exact ⟨nofun, Window.narrow_steps _ _⟩

theorem solution_converged (sound : m.Sound) (inside : ∀ i ∈ candidates, i ∈ options) (cap : 0 ≤ t.cap)
    (somebody : candidates ≠ []) (bankroll : 0 < t.bankroll)
    (often : ceiling m candidates ≤ 2 ^ t.iterations.toNat) :
    (solution m candidates t).converged = true := by
  by_cases enough : spending m t.cap candidates.eraseDups 0 ≤ t.bankroll
  · rw [solution_enough somebody bankroll enough]
  · rw [solution_searched sound inside cap somebody bankroll (Int.not_le.1 enough),
      settled_narrow sound inside cap (Int.le_of_lt bankroll)]
    apply Window.narrow_closed
    rwa [Int.sub_zero]

theorem solve?_converges {board : Board} {strategy : Strategy} {holdings : Holdings}
    (valid : board.Valid) (unitValue : 0 ≤ strategy.unitValue)
    (width : holdings.length = optionCount) (held : ∀ x ∈ holdings, 0 ≤ x)
    (inside : ∀ i ∈ candidates, i ∈ options) (somebody : candidates ≠ [])
    (bankroll : 1 ≤ t.bankroll) (cap : 1 ≤ t.cap) :
    ∃ (m : Model) (r : Solution) (first : Int → Int) (top : Int) (upper : Stakes),
      Model.price? board strategy holdings = .ok m ∧ solve? m candidates t = .ok r ∧
      (∀ i ∈ candidates, m.marginal? i 0 = .ok (first i)) ∧
      top = max 1 (candidates.toFinset.sup' ((List.toFinset_nonempty_iff _).2 somebody) first + 1) ∧
      ceiling? m candidates = .ok top ∧ (∀ i ∈ candidates, m.optimum? i top = .ok 0) ∧
      demand? m t.cap candidates.eraseDups top = .ok upper ∧ upper.total = 0 ∧
      (∀ asked n, widen? asked t.bankroll n ⟨0, top, upper⟩ = .ok ⟨0, top, upper⟩) ∧
      r.ending ≠ .unbracketed ∧ r.iterations ≤ max 0 t.iterations ∧
      (top ≤ 2 ^ t.iterations.toNat → r.converged = true) := by
  have sound := Model.priced_sound valid unitValue width held
  have least : 0 ≤ t.cap := Int.le_trans Int.one_nonneg cap
  have distinct : ∀ i ∈ candidates.eraseDups, i ∈ options := fun i member =>
    inside i (List.mem_eraseDups.1 member)
  have nothing : (demand (Model.priced board strategy holdings) t.cap candidates.eraseDups
      (ceiling (Model.priced board strategy holdings) candidates)).total = 0 :=
    spending_ceiling sound inside least
  obtain ⟨ending, steps⟩ := solution_found sound inside least somebody bankroll
  refine ⟨_, _, _, _, _, Model.price?_ok strategy valid width, sound.solve? inside t,
    fun i member => sound.marginal? (inside i member) 0, ceiling_eq_sup' _ somebody,
    sound.ceiling? somebody inside, ?_, sound.demand? t.cap distinct _, nothing, ?_, ending, ?_,
    solution_converged sound inside least somebody bankroll⟩
  · intro i member
    rw [sound.optimum? (inside i member), peak_ceiling sound inside member]
  · intro asked n
    apply widen?_of_fits
    rw [nothing]
    exact Int.le_of_lt bankroll
  · omega

-- Sixty-four halvings are enough for a start a little above ten units.
theorem solve?_converges_rising :
    ∃ (m : Model) (r : Solution),
      Model.price? ⟨options.map (100 * ·), List.replicate 25 0, 1090, 1, true, 7⟩
        ⟨0, 1, 1, 1, 800000000, 2, 60, 2⟩ (options.map (3 * ·)) = .ok m ∧
      ceiling? m [7, 2, 1, 7] = .ok 10039875339805825243 ∧
      m.optimum? 1 10039875339805825243 = .ok 0 ∧
      solve? m [7, 2, 1, 7] ⟨50, 400, 10, 64⟩ = .ok r ∧ r.ending ≠ .unbracketed ∧
      r.iterations ≤ 64 ∧ r.converged = true := by
  obtain ⟨m, r, _, top, _, pricing, run, _, _, highest, nothing, _, _, _, ending, steps, converges⟩ :=
    @solve?_converges [7, 2, 1, 7] ⟨50, 400, 10, 64⟩
      ⟨options.map (100 * ·), List.replicate 25 0, 1090, 1, true, 7⟩
      ⟨0, 1, 1, 1, 800000000, 2, 60, 2⟩ (options.map (3 * ·))
      (by decide) (by decide) (by decide) (by decide) (by decide) (by decide) (by decide) (by decide)
  have start : (do
      let m ← Model.price? ⟨options.map (100 * ·), List.replicate 25 0, 1090, 1, true, 7⟩
        ⟨0, 1, 1, 1, 800000000, 2, 60, 2⟩ (options.map (3 * ·))
      ceiling? m [7, 2, 1, 7]) = .ok 10039875339805825243 := by decide
  rw [pricing] at start
  cases highest.symm.trans start
  dsimp only at steps
  exact ⟨m, r, pricing, highest, nothing 1 (by decide), run, ending, by omega, converges (by decide)⟩

end Parimutuel.ShadowPrice
