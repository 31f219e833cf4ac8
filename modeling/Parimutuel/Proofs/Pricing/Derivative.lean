import Mathlib.Data.Int.ConditionallyCompleteOrder
import Mathlib.Data.Rat.Floor
import Parimutuel.Proofs.Acceptance
import Parimutuel.Proofs.Pricing.Increments

namespace Parimutuel

-- From here on every unit adds to a part of the prize: where nobody else staked, the first unit wins all
-- of it at once.
def firstStake (taken : Int) : Int := if taken = 0 then 1 else 0

-- `marginal` is how fast `value` grows from `least` on, in fixed point.
structure Derives (value marginal : Int → Int) (least : Int) : Prop where
  lower : ∀ x y, least ≤ x → x ≤ y → ⌊((y - x) * marginal y : ℚ) / wad⌋ ≤ value y - value x
  upper : ∀ x y, least ≤ x → x ≤ y → value y - value x ≤ ⌈((y - x) * (marginal x + 1) : ℚ) / wad⌉
  falls : Antitone marginal

-- Two stretches that meet: both are compared with what the unit between them is worth.
theorem Derives.concave {value marginal : Int → Int} {least x y z : Int}
    (derives : Derives value marginal least) (start : least ≤ x) (first : x ≤ y) (second : y ≤ z) :
    ((y - x) * (value z - value y) : ℚ) ≤
      (z - y) * (value y - value x) + (z - x) + (y - x) * (z - y) / wad := by
  have unit : (0 : ℚ) < wad := Int.cast_pos.2 wad_pos
  have before : (0 : ℚ) ≤ y - x := sub_nonneg.2 (Int.cast_le.2 first)
  have after : (0 : ℚ) ≤ z - y := sub_nonneg.2 (Int.cast_le.2 second)
  have gained : ((y - x) * marginal y : ℚ) / wad ≤ value y - value x + 1 := by
    have low := Int.floor_le_iff.1 (derives.lower x y start first)
    push_cast at low
    exact le_of_lt low
  have added : (value z - value y : ℚ) - 1 ≤ (z - y) * (marginal y + 1) / wad := by
    have high := Int.le_ceil_iff.1 (derives.upper y z (Int.le_trans start first) second)
    push_cast at high
    exact le_of_lt high
  have left := mul_le_mul_of_nonneg_left added before
  have right := mul_le_mul_of_nonneg_left gained after
  have shared : (y - x : ℚ) * ((z - y) * (marginal y + 1) / wad) =
      (z - y) * ((y - x) * marginal y / wad) + (y - x) * (z - y) / wad := by ring
  linarith

namespace Quote

variable {q : Quote} {x y : Int}

theorem derives (taken : 0 ≤ q.taken) (prize : 0 ≤ q.prize) :
    Derives q.value q.marginal (firstStake q.taken) := by
  have start : ∀ {x}, firstStake q.taken ≤ x → 0 ≤ x ∧ 0 < q.taken + x := by
    intro x first
    unfold firstStake at first
    split at first <;> omega
  refine ⟨?_, ?_, fun x y order => marginal_antitone taken prize order⟩
  · intro x y first order
    obtain ⟨least, pooled⟩ := start first
    have steep := bar_marginal_span_le taken prize least pooled order
    have whole := Int.floor_le (((y - x) * q.marginal y : ℚ) / wad)
    rw [le_div_iff₀ (Int.cast_pos.2 wad_pos)] at whole
    generalize ⌊((y - x) * q.marginal y : ℚ) / wad⌋ = units at whole ⊢
    have gained := gain_add_le pooled order steep (by exact_mod_cast whole)
    rw [value_eq_gain q least, value_eq_gain q (Int.le_trans least order)]
    omega
  · intro x y first order
    obtain ⟨least, pooled⟩ := start first
    have steep := le_bar_marginal_span taken prize least pooled order
    have whole := Int.le_ceil (((y - x) * (q.marginal x + 1) : ℚ) / wad)
    rw [div_le_iff₀ (Int.cast_pos.2 wad_pos)] at whole
    generalize ⌈((y - x) * (q.marginal x + 1) : ℚ) / wad⌉ = units at whole ⊢
    have gained := gain_le_add pooled order steep (by exact_mod_cast whole)
    rw [value_eq_gain q least, value_eq_gain q (Int.le_trans least order)]
    omega

end Quote

theorem Model.marginal?_derives {board : Board} {strategy : Strategy} {holdings : Holdings} {i : Int}
    (valid : board.Valid) (unitValue : 0 ≤ strategy.unitValue)
    (width : holdings.length = optionCount) (held : ∀ y ∈ holdings, 0 ≤ y) (member : i ∈ options) :
    ∃ (m : Model) (value marginal : Int → Int),
      price? board strategy holdings = .ok m ∧ (∀ x, m.value? i x = .ok (value x)) ∧
      (∀ x, m.marginal? i x = .ok (marginal x)) ∧
      Derives value marginal (firstStake (takenAt board i)) ∧
      ∀ x y z, firstStake (takenAt board i) ≤ x → x ≤ y → y ≤ z →
        ((y - x) * (value z - value y) : ℚ) ≤
          (z - y) * (value y - value x) + (z - x) + (y - x) * (z - y) / wad := by
  have sound := priced_sound valid unitValue width held
  obtain ⟨taken, prize, _⟩ := sound.quoteAt_nonneg member
  have derives := Quote.derives taken prize
  exact ⟨_, _, _, price?_ok strategy valid width, sound.value? member, sound.marginal? member, derives,
    fun x y z start first second => derives.concave start first second⟩

-- Fifty units more on option 4, with something held on every other option.
theorem Model.marginal?_derives_rising :
    ∃ m : Model,
      price? ⟨options.map (100 * ·), List.replicate 25 0, 1090, 1, true, 7⟩
        ⟨0, 1, 1, 1, 800000000, 2, 60, 2⟩ (options.map (3 * ·)) = .ok m ∧
      m.value? 4 40 = .ok 61 ∧ m.value? 4 90 = .ok 115 ∧
      m.marginal? 4 40 = .ok 1308834017491775655 ∧ m.marginal? 4 90 = .ok 874054431850806499 ∧
      ⌊((90 - 40) * 874054431850806499 : ℚ) / wad⌋ ≤ 115 - 61 ∧
      115 - 61 ≤ ⌈((90 - 40) * (1308834017491775655 + 1) : ℚ) / wad⌉ := by
  obtain ⟨m, value, marginal, pricing, values, marginals, derives, _⟩ := @marginal?_derives
    ⟨options.map (100 * ·), List.replicate 25 0, 1090, 1, true, 7⟩
    ⟨0, 1, 1, 1, 800000000, 2, 60, 2⟩ (options.map (3 * ·)) 4
    (by decide) (by decide) (by decide) (by decide) (by decide)
  have answers : (do
      let m ← price? ⟨options.map (100 * ·), List.replicate 25 0, 1090, 1, true, 7⟩
        ⟨0, 1, 1, 1, 800000000, 2, 60, 2⟩ (options.map (3 * ·))
      return (← m.value? 4 40, ← m.value? 4 90, ← m.marginal? 4 40, ← m.marginal? 4 90)) =
        .ok (61, 115, 1308834017491775655, 874054431850806499) := by decide
  simp only [pricing, values, marginals, bind, Except.bind, pure, Except.pure, Except.ok.injEq,
    Prod.mk.injEq] at answers
  obtain ⟨less, more, first, last⟩ := answers
  have lower := derives.lower 40 90 (by decide) (by decide)
  have upper := derives.upper 40 90 (by decide) (by decide)
  rw [less, more] at lower upper
  rw [last] at lower
  rw [first] at upper
  refine ⟨m, pricing, less ▸ values 40, more ▸ values 90, first ▸ marginals 40, last ▸ marginals 90, ?_, ?_⟩
  · exact_mod_cast lower
  · exact_mod_cast upper

end Parimutuel
