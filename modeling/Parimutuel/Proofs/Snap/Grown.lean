import Parimutuel.Proofs.Pricing.Ascent
import Parimutuel.Proofs.Snap.Kept

namespace Parimutuel

namespace Stakes

def raised (few : Stakes) (more : Int → Int) : Stakes := few.map fun p => (p.1, more p.1)

theorem amount_raised (few : Stakes) (more : Int → Int) (i : Int) :
    (few.raised more).amount i = if i ∈ few.numbers then more i else 0 := by
  induction few with
  | nil => rfl
  | cons p rest ih =>
    rw [raised, List.map_cons, amount_cons, numbers_cons]
    by_cases same : i = p.1
    · rw [if_pos same, if_pos (same ▸ List.mem_cons_self), same]
    · rw [if_neg same]
      simp only [List.mem_cons, same, false_or]
      exact ih

theorem amount_le_raised {few : Stakes} {more : Int → Int} (order : ∀ i, few.amount i ≤ more i)
    (i : Int) : few.amount i ≤ (few.raised more).amount i := by
  rw [amount_raised]
  by_cases named : i ∈ few.numbers
  · rw [if_pos named]
    exact order i
  · rw [if_neg named, amount_of_not_mem named]

end Stakes

-- Every raised stake gains by its own growth and by that of the others.
theorem Model.Sound.pays_raised {base : Model} (sound : base.Sound) {few : Stakes} (placed : few.Placed)
    (pays : base.Pays few) (positive : ∀ p ∈ few, 0 < p.2) {more : Int → Int}
    (order : ∀ i, few.amount i ≤ more i)
    (room : ∀ i ∈ few.numbers, more i = few.amount i ∨
      ∃ price, 0 ≤ price ∧ more i ≤ ((base.against few).quoteAt i).peak price) :
    base.Pays (few.raised more) := by
  intro p member
  obtain ⟨q, entry, rfl⟩ := List.mem_map.1 member
  have named := Stakes.numbers_of_mem entry
  have known := placed.known q.1 named
  have same : few.amount q.1 = q.2 := Stakes.amount_of_mem placed.distinct entry
  obtain ⟨taken, prize, _⟩ := (sound.against few).quoteAt_nonneg known
  have below : ((base.against few).quoteAt q.1).Below ((base.against (few.raised more)).quoteAt q.1) := by
    apply Model.quoteAt_below (sound.against few) (sound.against (few.raised more)) rfl rfl known
    intro j inside
    have option := mem_grid.1 (Finset.mem_of_mem_erase inside)
    have own : ∀ u : Stakes, Model.ownAt (base.against u).holdings j = max 0 (u.amount j) := fun u =>
      u.ownAt_holdings option
    have grown := Stakes.amount_le_raised order j
    rw [own, own]
    omega
  have ascent : ((base.against few).quoteAt q.1).value q.2 ≤
      ((base.against few).quoteAt q.1).value (more q.1) := by
    rcases room q.1 named with unmoved | ⟨price, free, peak⟩
    · rw [unmoved, same]
    · exact Quote.value_ascends taken prize free (Int.le_of_lt (positive q entry)) (same ▸ order q.1) peak
  calc (0 : Int)
      < ((base.against few).quoteAt q.1).value q.2 := pays q entry
    _ ≤ ((base.against few).quoteAt q.1).value (more q.1) := ascent
    _ ≤ ((base.against (few.raised more)).quoteAt q.1).value (more q.1) := below.value taken _

namespace Snap

def fit (s : Strategy) (amount : Int) : Int :=
  if s.minBet ≤ onTick s amount then min (onTick s amount) s.cap else 0

variable {s : Strategy}

theorem onTick_mono (tick : 0 < s.tick) {x y : Int} (order : x ≤ y) : onTick s x ≤ onTick s y :=
  Int.mul_le_mul_of_nonneg_right (Int.ediv_le_ediv tick order) (Int.le_of_lt tick)

theorem fit_mono (valid : s.Valid) {x y : Int} (order : x ≤ y) : fit s x ≤ fit s y := by
  have down := onTick_mono valid.tick_pos order
  have least := valid.minBet_pos
  have cap := valid.minBet_le
  unfold fit
  split <;> split <;> omega

theorem fit_le (valid : s.Valid) {x : Int} (least : 0 ≤ x) : fit s x ≤ x := by
  have down := onTick_le valid.tick_pos x
  unfold fit
  split <;> omega

theorem fit_zero (valid : s.Valid) : fit s 0 = 0 := by
  have least := valid.minBet_pos
  rw [fit, onTick, Int.zero_ediv, Int.zero_mul, if_neg (Int.not_le.2 least)]

theorem fit_minBet (valid : s.Valid) : fit s s.minBet = s.minBet := by
  rw [fit, if_pos (Int.le_of_eq (onTick_of_dvd valid.minBet_tick).symm), cut_minBet valid]

theorem amount_trimmed (valid : s.Valid) {stakes : Stakes} (placed : stakes.Placed) (i : Int) :
    (trimmed s stakes).amount i = fit s (stakes.amount i) := by
  have distinct := (trimmed_placed s placed).distinct
  by_cases kept : (trimmed s stakes).amount i = 0
  · by_cases large : s.minBet ≤ onTick s (stakes.amount i)
    · -- an amount of that size is staked, and trimming leaves some of it
      have least := valid.minBet_pos
      have staked : stakes.amount i ≠ 0 := by
        intro nothing
        rw [nothing, onTick, Int.zero_ediv, Int.zero_mul] at large
        omega
      have entry := mem_trimmed.2 ⟨_, Stakes.mem_of_amount staked, large, rfl⟩
      have left : (trimmed s stakes).amount i = _ := Stakes.amount_of_mem distinct entry
      rw [left, fit, if_pos large]
    · rw [kept, fit, if_neg large]
  · obtain ⟨q, entry, large, same⟩ := mem_trimmed.1 (Stakes.mem_of_amount kept)
    obtain ⟨option, amount⟩ := Prod.mk.inj same
    have whole : stakes.amount i = q.2 := option ▸ Stakes.amount_of_mem placed.distinct entry
    rw [amount, whole, fit, if_pos large]

end Snap
end Parimutuel
