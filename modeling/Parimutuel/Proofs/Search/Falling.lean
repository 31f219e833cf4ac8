import Parimutuel.Proofs.Pricing.Increments
import Parimutuel.Proofs.Search.Solution

namespace Parimutuel

namespace Quote

variable {q : Quote}

theorem clampedHurdle_mono (q : Quote) {price dearer : Int} (order : price ≤ dearer) :
    q.clampedHurdle price ≤ q.clampedHurdle dearer := by
  unfold clampedHurdle hurdle
  rw [optionCount_cast]
  omega

theorem peak_antitone (taken : 0 ≤ q.taken) (prize : 0 ≤ q.prize) {price dearer : Int}
    (order : price ≤ dearer) : q.peak dearer ≤ q.peak price :=
  peak_le_peak taken prize prize rfl (clampedHurdle_mono q order) (Int.le_refl _)

theorem peak_of_first_lt (taken : 0 ≤ q.taken) (prize : 0 ≤ q.prize) {price : Int} (least : 0 ≤ price)
    (first : q.marginal 0 < price) : q.peak price = 0 := by
  by_cases nothing : q.peak price < 1
  · have := peak_nonneg q price
    omega
  · have positive := Int.not_lt.1 nothing
    have worth := le_marginal_of_le_peak taken prize least positive (Int.le_refl _)
    have falls := marginal_antitone taken prize (show 0 ≤ q.peak price by omega)
    omega

end Quote

namespace ShadowPrice

variable {m : Model} {candidates : List Int} {t : Terms} {cap price dearer i : Int}

theorem wish_antitone (sound : m.Sound) (member : i ∈ options) (order : price ≤ dearer) :
    wish m cap dearer i ≤ wish m cap price i := by
  obtain ⟨taken, prize, _⟩ := sound.quoteAt_nonneg member
  have falls := Quote.peak_antitone taken prize order
  unfold wish
  omega

theorem spending_eq_sum (m : Model) (cap : Int) (candidates : List Int) (price : Int) :
    spending m cap candidates.eraseDups price = ∑ i ∈ candidates.toFinset, wish m cap price i := by
  have row : (demand m cap candidates.eraseDups price).map Prod.snd =
      candidates.eraseDups.map (wish m cap price) := by
    rw [demand, List.map_map]
    rfl
  have same : candidates.eraseDups.toFinset = candidates.toFinset := by
    ext i
    rw [List.mem_toFinset, List.mem_toFinset, List.mem_eraseDups]
  rw [spending, Stakes.total, row, sumOf_map_nodup (Allotment.eraseDups_nodup candidates), same]

theorem spending_antitone (sound : m.Sound) (inside : ∀ i ∈ candidates, i ∈ options)
    (order : price ≤ dearer) :
    spending m cap candidates.eraseDups dearer ≤ spending m cap candidates.eraseDups price := by
  rw [spending_eq_sum, spending_eq_sum]
  apply Finset.sum_le_sum
  intro i member
  exact wish_antitone sound (inside i (List.mem_toFinset.1 member)) order

theorem spending_le (m : Model) (least : 0 ≤ cap) (candidates : List Int) (price : Int) :
    spending m cap candidates.eraseDups price ≤ cap * candidates.length := by
  have each := Finset.sum_le_card_nsmul candidates.toFinset (wish m cap price) cap
    fun i _ => wish_le m cap price i
  rw [nsmul_eq_mul, mul_comm] at each
  have count : (candidates.toFinset.card : Int) ≤ candidates.length :=
    Int.ofNat_le.2 (List.toFinset_card_le candidates)
  rw [spending_eq_sum]
  exact Int.le_trans each (Int.mul_le_mul_of_nonneg_left count least)

theorem solution_total_le (m : Model) (least : 0 ≤ t.cap) (candidates : List Int) :
    (solution m candidates t).stakes.total ≤ t.cap * candidates.length := by
  rw [solution_total m candidates least]
  rcases solution_cases m candidates t with ⟨_, nothing⟩ | taken
  · rw [nothing]
    exact Int.mul_nonneg least (Int.natCast_nonneg _)
  · rw [taken.aggregate]
    exact spending_le m least candidates _

theorem peak_ceiling (sound : m.Sound) (inside : ∀ i ∈ candidates, i ∈ options) (member : i ∈ candidates) :
    (m.quoteAt i).peak (ceiling m candidates) = 0 := by
  obtain ⟨positive, above⟩ := (ceiling_le_iff m candidates _).1 (Int.le_refl _)
  obtain ⟨taken, prize, _⟩ := sound.quoteAt_nonneg (inside i member)
  exact Quote.peak_of_first_lt taken prize (Int.le_trans (by decide) positive)
    (Int.lt_of_lt_of_le (Int.lt_succ _) (above i member))

theorem spending_ceiling (sound : m.Sound) (inside : ∀ i ∈ candidates, i ∈ options) (least : 0 ≤ cap) :
    spending m cap candidates.eraseDups (ceiling m candidates) = 0 := by
  rw [spending_eq_sum]
  apply Finset.sum_eq_zero
  intro i member
  rw [wish, peak_ceiling sound inside (List.mem_toFinset.1 member)]
  exact Int.min_eq_left least

theorem opening_eq (sound : m.Sound) (inside : ∀ i ∈ candidates, i ∈ options) (cap : 0 ≤ t.cap)
    (bankroll : 0 ≤ t.bankroll) : opening m candidates t = ⟨0, ceiling m candidates⟩ := by
  have fits : spending m t.cap candidates.eraseDups (ceiling m candidates) ≤ t.bankroll := by
    rw [spending_ceiling sound inside cap]
    exact bankroll
  unfold opening Window.widen doublings
  exact if_pos fits

theorem settled_narrow (sound : m.Sound) (inside : ∀ i ∈ candidates, i ∈ options) (cap : 0 ≤ t.cap)
    (bankroll : 0 ≤ t.bankroll) :
    settled m candidates t = Window.narrow (spending m t.cap candidates.eraseDups) t
      t.iterations.toNat ⟨0, ceiling m candidates⟩ := by
  rw [settled, opening_eq sound inside cap bankroll]

theorem settled_fits (sound : m.Sound) (inside : ∀ i ∈ candidates, i ∈ options) (cap : 0 ≤ t.cap)
    (bankroll : 0 ≤ t.bankroll) :
    spending m t.cap candidates.eraseDups (settled m candidates t).1.high ≤ t.bankroll := by
  rw [settled_narrow sound inside cap bankroll]
  apply Window.narrow_fits
  rw [spending_ceiling sound inside cap]
  exact bankroll

-- Where they do not, halving starts between no price and one at which nobody wants anything.
theorem solution_searched (sound : m.Sound) (inside : ∀ i ∈ candidates, i ∈ options) (cap : 0 ≤ t.cap)
    (somebody : candidates ≠ []) (bankroll : 0 < t.bankroll)
    (exceeded : t.bankroll < spending m t.cap candidates.eraseDups 0) :
    solution m candidates t =
      { ending := .searched
        price := (settled m candidates t).1.high
        stakes := funded (demand m t.cap candidates.eraseDups (settled m candidates t).1.high)
        aggregate := spending m t.cap candidates.eraseDups (settled m candidates t).1.high
        iterations := (settled m candidates t).2
        converged := (settled m candidates t).1.closed (spending m t.cap candidates.eraseDups) t } := by
  have fits : spending m t.cap candidates.eraseDups (opening m candidates t).high ≤ t.bankroll := by
    rw [opening_eq sound inside cap (Int.le_of_lt bankroll), spending_ceiling sound inside cap]
    exact Int.le_of_lt bankroll
  rw [solution, if_neg (not_idle somebody bankroll), if_neg (Int.not_le.2 exceeded), if_pos fits]

theorem solution_settled {found : Stakes} (sound : m.Sound) (inside : ∀ i ∈ candidates, i ∈ options)
    (cap : 0 ≤ t.cap) (somebody : candidates ≠ []) (bankroll : 0 < t.bankroll)
    (exceeded : t.bankroll < spending m t.cap candidates.eraseDups 0)
    (wishes : (demand m t.cap candidates.eraseDups (settled m candidates t).1.high).positive = found)
    (order : found.numbers.Pairwise (· < ·)) : (solution m candidates t).stakes = found := by
  rw [solution_searched sound inside cap somebody bankroll exceeded]
  change Stakes.sorted (demand m t.cap candidates.eraseDups _).positive = found
  rw [wishes, Stakes.sorted_of_numbers order]

end ShadowPrice
end Parimutuel
