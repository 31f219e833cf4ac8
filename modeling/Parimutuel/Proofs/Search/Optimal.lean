import Mathlib.Algebra.BigOperators.Intervals
import Mathlib.Algebra.Order.BigOperators.Ring.Finset
import Mathlib.Tactic.Linarith
import Parimutuel.Proofs.Acceptance
import Parimutuel.Proofs.Search.Solution

namespace Parimutuel

def Quote.worth (q : Quote) (stake : Int) : Int := ∑ k ∈ Finset.range stake.toNat, q.marginal (k + 1)

namespace Quote

variable {q : Quote}

theorem worth_of_nonpos {stake : Int} (nothing : stake ≤ 0) : q.worth stake = 0 := by
  rw [worth, Int.toNat_of_nonpos nothing, Finset.sum_range_zero]

theorem worth_split {less more : Int} (order : less ≤ more) :
    q.worth more = q.worth less + ∑ k ∈ Finset.Ico less.toNat more.toNat, q.marginal (k + 1) := by
  have small : less.toNat ≤ more.toNat := Int.toNat_le_toNat order
  exact (Finset.sum_range_add_sum_Ico (fun k : Nat => q.marginal (k + 1)) small).symm

theorem card_units {less more : Int} (least : 0 ≤ less) (order : less ≤ more) (price : Int) :
    (Finset.Ico less.toNat more.toNat).card • price = price * (more - less) := by
  have units : ((more.toNat - less.toNat : Nat) : Int) = more - less := by omega
  rw [Nat.card_Ico, nsmul_eq_mul, units, Int.mul_comm]

theorem worth_exchange {price given cap other : Int}
    (inner : ∀ k, 1 ≤ k → k ≤ given → price ≤ q.marginal k)
    (outer : ∀ k, given < k → k ≤ cap → q.marginal k ≤ price)
    (least : 0 ≤ given) (nonneg : 0 ≤ other) (capped : other ≤ cap) :
    q.worth other - q.worth given ≤ price * (other - given) := by
  rcases Int.le_total other given with fewer | more
  · have lost := Finset.card_nsmul_le_sum (Finset.Ico other.toNat given.toNat)
      (fun k : Nat => q.marginal (k + 1)) price fun k member => by
        rw [Finset.mem_Ico] at member
        exact inner (k + 1) (by omega) (by omega)
    rw [card_units nonneg fewer] at lost
    rw [worth_split fewer]
    linarith
  · have gained := Finset.sum_le_card_nsmul (Finset.Ico given.toNat other.toNat)
      (fun k : Nat => q.marginal (k + 1)) price fun k member => by
        rw [Finset.mem_Ico] at member
        exact outer (k + 1) (by omega) (by omega)
    rw [card_units least more] at gained
    rw [worth_split more]
    linarith

end Quote

namespace ShadowPrice

variable {m : Model} {candidates : List Int} {t : Terms}

theorem wish_exchange (sound : m.Sound) {cap price i other : Int} (member : i ∈ options)
    (least : 0 ≤ cap) (free : 0 ≤ price) (nonneg : 0 ≤ other) (capped : other ≤ cap) :
    (m.quoteAt i).worth other - (m.quoteAt i).worth (wish m cap price i) ≤
      price * (other - wish m cap price i) := by
  obtain ⟨taken, prize, _⟩ := sound.quoteAt_nonneg member
  apply Quote.worth_exchange _ _ (wish_nonneg m price i least) nonneg capped
  · intro k positive within
    have below : k ≤ (m.quoteAt i).peak price := Int.le_trans within (Int.min_le_left _ _)
    exact Quote.le_marginal_of_le_peak taken prize free positive below
  · intro k above within
    have beyond : (m.quoteAt i).peak price < k := by
      unfold wish at above
      omega
    exact Quote.marginal_le_of_peak_lt taken prize (sound.cross_le member) free beyond

theorem sum_amount (inside : ∀ i ∈ candidates, i ∈ options) (least : 0 ≤ t.cap) :
    ∑ i ∈ candidates.toFinset, (solution m candidates t).stakes.amount i =
      (solution m candidates t).aggregate := by
  have among : candidates.toFinset ⊆ grid := by
    intro i member
    exact mem_grid.2 (inside i (List.mem_toFinset.1 member))
  rw [← solution_total m candidates least, Stakes.total_eq_sum (solution_placed t inside)]
  apply Finset.sum_subset among
  intro i _ absent
  apply Stakes.amount_of_not_mem
  intro named
  obtain ⟨p, entry, rfl⟩ := List.mem_map.1 named
  exact absent (List.mem_toFinset.2 (solution_mem entry).1)

theorem worth_le_solution (sound : m.Sound) (inside : ∀ i ∈ candidates, i ∈ options)
    (least : 0 ≤ t.cap) {other : Int → Int}
    (allowed : ∀ i ∈ candidates, 0 ≤ other i ∧ other i ≤ t.cap)
    (spent : ∑ i ∈ candidates.toFinset, other i ≤ (solution m candidates t).aggregate) :
    ∑ i ∈ candidates.toFinset, (m.quoteAt i).worth (other i) ≤
      ∑ i ∈ candidates.toFinset,
        (m.quoteAt i).worth ((solution m candidates t).stakes.amount i) := by
  have total := sum_amount (m := m) (t := t) inside least
  rcases solution_cases m candidates t with ⟨empty, nothing⟩ | taken
  · have each : ∀ i ∈ candidates.toFinset, other i ≤ 0 := by
      intro i member
      have one := Finset.single_le_sum (f := other)
        (fun j inner => (allowed j (List.mem_toFinset.1 inner)).1) member
      omega
    apply Finset.sum_le_sum
    intro i member
    rw [empty, Stakes.amount_nil, Quote.worth_of_nonpos (each i member),
      Quote.worth_of_nonpos (Int.le_refl 0)]
  · have gain : ∀ i ∈ candidates.toFinset,
        (m.quoteAt i).worth (other i) -
            (m.quoteAt i).worth ((solution m candidates t).stakes.amount i) ≤
          (solution m candidates t).price * (other i - (solution m candidates t).stakes.amount i) := by
      intro i member
      have candidate := List.mem_toFinset.1 member
      rw [taken_amount least taken candidate]
      exact wish_exchange sound (inside i candidate) least taken.price_nonneg
        (allowed i candidate).1 (allowed i candidate).2
    have gains := Finset.sum_le_sum gain
    rw [Finset.sum_sub_distrib, ← Finset.mul_sum, Finset.sum_sub_distrib, total] at gains
    have unspent : ∑ i ∈ candidates.toFinset, other i - (solution m candidates t).aggregate ≤ 0 := by
      omega
    have priced := mul_nonpos_of_nonneg_of_nonpos taken.price_nonneg unspent
    linarith

theorem solve?_optimal {board : Board} {strategy : Strategy} {holdings : Holdings}
    (valid : board.Valid) (unitValue : 0 ≤ strategy.unitValue)
    (width : holdings.length = optionCount) (held : ∀ x ∈ holdings, 0 ≤ x)
    (inside : ∀ i ∈ candidates, i ∈ options) (cap : 1 ≤ t.cap) :
    ∃ m r, Model.price? board strategy holdings = .ok m ∧ solve? m candidates t = .ok r ∧
      (∀ others : List Int, (∀ i, i ∈ others ↔ i ∈ candidates) → solve? m others t = .ok r) ∧
      r.stakes.numbers.Pairwise (· < ·) ∧
      (∀ p ∈ r.stakes, p.1 ∈ candidates ∧ 0 < p.2 ∧ p.2 ≤ t.cap) ∧
      r.aggregate = r.stakes.total ∧ r.aggregate ≤ max 0 t.bankroll ∧
      ∃ marginal : Int → Int → Int,
        (∀ i ∈ candidates, ∀ k, m.marginal? i k = .ok (marginal i k)) ∧
        ∀ other : Int → Int, (∀ i ∈ candidates, 0 ≤ other i ∧ other i ≤ t.cap) →
          ∑ i ∈ candidates.toFinset, other i ≤ r.aggregate →
          ∑ i ∈ candidates.toFinset, ∑ k ∈ Finset.range (other i).toNat, marginal i (k + 1) ≤
            ∑ i ∈ candidates.toFinset, ∑ k ∈ Finset.range (r.stakes.amount i).toNat,
              marginal i (k + 1) := by
  have sound := Model.priced_sound valid unitValue width held
  have least : 0 ≤ t.cap := by omega
  refine ⟨_, _, Model.price?_ok strategy valid width, sound.solve? inside t, ?_, ?_, ?_, ?_, ?_,
    fun i k => ((Model.priced board strategy holdings).quoteAt i).marginal k, ?_, ?_⟩
  · intro others same
    rw [← solution_congr _ t same]
    exact sound.solve? (fun i member => inside i ((same i).1 member)) t
  · exact solution_numbers _ candidates t
  · intro p entry
    obtain ⟨candidate, positive, taken⟩ := solution_mem entry
    exact ⟨candidate, positive, taken ▸ wish_le _ t.cap _ p.1⟩
  · exact (solution_total _ candidates least).symm
  · exact solution_aggregate_le _ candidates t
  · intro i member k
    exact sound.marginal? (inside i member) k
  · intro other allowed spent
    exact worth_le_solution sound inside least allowed spent

-- A bankroll that binds, repeated candidates, own stakes on the board and no halving allowed.
theorem solve?_optimal_unconverged :
    ∃ m r, Model.price? ⟨(List.range 25).map fun k => 100 * k, List.replicate 25 0, 1090, 1, true, 7⟩
        ⟨0, 1, 1, 1, 800000000, 2, 60, 2⟩ ((List.range 25).map fun k => 3 * k) = .ok m ∧
      solve? m [7, 2, 0, 7] ⟨50, 400, 10, 0⟩ = .ok r ∧ solve? m [0, 2, 7] ⟨50, 400, 10, 0⟩ = .ok r ∧
      r.aggregate ≤ 50 := by
  obtain ⟨m, r, pricing, run, same, _, _, _, within, _⟩ := @solve?_optimal [7, 2, 0, 7]
    ⟨50, 400, 10, 0⟩
    ⟨(List.range 25).map fun k => 100 * k, List.replicate 25 0, 1090, 1, true, 7⟩
    ⟨0, 1, 1, 1, 800000000, 2, 60, 2⟩ ((List.range 25).map fun k => 3 * k)
    (by decide) (by decide) (by decide) (by decide) (by decide) (by decide)
  refine ⟨m, r, pricing, run, same [0, 2, 7] ?_, within⟩
  intro i
  simp only [List.mem_cons, List.not_mem_nil, or_false]
  omega

end ShadowPrice
end Parimutuel
