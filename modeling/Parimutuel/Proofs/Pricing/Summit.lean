import Mathlib.Data.Int.ConditionallyCompleteOrder
import Mathlib.Order.Interval.Set.Defs
import Mathlib.Order.Monotone.Defs
import Parimutuel.Proofs.Pricing.Ascent

namespace Parimutuel

-- A value that rises up to one stake and falls after it, but for a unit on the way.
structure Peaked (value : Int → Int) (best : Int) : Prop where
  best_nonneg : 0 ≤ best
  rises : MonotoneOn value (Set.Icc 0 best)
  falls : AntitoneOn value (Set.Ici (best + 1))
  pays : 0 ≤ value best
  near : ∀ x, 0 ≤ x → value x ≤ value best + 1

namespace Quote

variable {q : Quote} {x y : Int}

-- Away from the corner the clamp does not move the hurdle, so past the peak it is not met.
theorem weight_lt_of_peak_lt (taken : 0 ≤ q.taken) (prize : 0 ≤ q.prize) (room : q.cross < maxCross)
    (above : q.peak 0 < x) : q.weight < q.bar 0 * ((q.taken + x) * (q.taken + x)) := by
  have positive : 1 ≤ x := by
    have := peak_nonneg q 0
    omega
  have hurdle : 1 ≤ q.hurdle 0 := by
    rw [maxCross] at room
    rw [Quote.hurdle, optionCount_cast]
    omega
  rw [bar_of_nonneg q (Int.le_refl 0), ← clampedHurdle_of_pos hurdle]
  exact Int.not_le.1 fun within => Int.not_le.2 above ((le_peak_iff taken prize positive).2 within)

theorem value_descends (taken : 0 ≤ q.taken) (prize : 0 ≤ q.prize) (room : q.cross < maxCross)
    (above : q.peak 0 < x) (order : x ≤ y) : q.value y ≤ q.value x := by
  have peak := peak_nonneg q 0
  have least : 0 ≤ q.bar 0 := by
    rw [bar_of_nonneg q (Int.le_refl 0)]
    exact hurdle_nonneg (Int.le_of_lt room)
  have area : (q.taken + x) * (q.taken + x) ≤ q.span x y :=
    Int.mul_le_mul_of_nonneg_left (by omega) (by omega)
  have steep : q.weight ≤ q.bar 0 * q.span x y :=
    Int.le_trans (Int.le_of_lt (weight_lt_of_peak_lt taken prize room above))
      (Int.mul_le_mul_of_nonneg_left area least)
  exact value_falls (by omega) (by omega) order steep

-- The unit after the peak grows the prize part by less than twice what it costs.
theorem value_after_peak (staked : 0 < q.taken) (prize : 0 ≤ q.prize) (cross : 0 ≤ q.cross)
    (room : q.cross < maxCross) : q.value (q.peak 0 + 1) ≤ q.value (q.peak 0) + 1 := by
  have taken := Int.le_of_lt staked
  have peak := peak_nonneg q 0
  have pooled : 1 ≤ q.taken + q.peak 0 := by omega
  have cost : q.bar 0 ≤ 24 * wad := by
    rw [bar, optionCount_cast]
    omega
  have dearer : q.bar wad = q.bar 0 + 25 * wad := by
    rw [bar, bar, optionCount_cast]
    omega
  have beyond := weight_lt_of_peak_lt taken prize room (Int.lt_succ (q.peak 0))
  have once : q.bar 0 ≤ 25 * wad * (q.taken + q.peak 0) := by
    apply Int.le_trans _ (Int.mul_le_mul_of_nonneg_left pooled (by decide))
    have unit := wad_pos
    omega
  have steep : q.weight ≤ q.bar wad * q.span (q.peak 0) (q.peak 0 + 1) := by
    calc q.weight
        ≤ q.bar 0 * ((q.taken + (q.peak 0 + 1)) * (q.taken + (q.peak 0 + 1))) := Int.le_of_lt beyond
      _ = (q.bar 0 * (q.taken + q.peak 0) + q.bar 0) * (q.taken + (q.peak 0 + 1)) := by ring
      _ ≤ (q.bar 0 * (q.taken + q.peak 0) + 25 * wad * (q.taken + q.peak 0)) *
            (q.taken + (q.peak 0 + 1)) :=
          Int.mul_le_mul_of_nonneg_right (Int.add_le_add_left once _) (by omega)
      _ = q.bar wad * q.span (q.peak 0) (q.peak 0 + 1) := by
          rw [dearer, span]
          ring
  have unit : (q.peak 0 + 1 - q.peak 0) * wad ≤ 1 * wad := by
    rw [add_sub_cancel_left]
  have gained := gain_le_add pooled (Int.le_of_lt (Int.lt_succ _)) steep unit
  rw [value_eq_gain q peak, value_eq_gain q (by omega)]
  exact gained

theorem peaked (staked : 0 < q.taken) (prize : 0 ≤ q.prize) (cross : 0 ≤ q.cross)
    (room : q.cross < maxCross) : Peaked q.value (q.peak 0) := by
  have taken := Int.le_of_lt staked
  have best := peak_nonneg q 0
  have after := value_after_peak staked prize cross room
  have rises : MonotoneOn q.value (Set.Icc 0 (q.peak 0)) := fun x first y last order =>
    value_ascends taken prize (Int.le_refl 0) first.1 order last.2
  have falls : AntitoneOn q.value (Set.Ici (q.peak 0 + 1)) := fun x first y _ order =>
    value_descends taken prize room first order
  refine ⟨best, rises, falls, ?_, ?_⟩
  · exact rises ⟨Int.le_refl 0, best⟩ ⟨best, Int.le_refl _⟩ best
  · intro x least
    rcases Int.lt_or_le (q.peak 0) x with beyond | within
    · exact Int.le_trans (falls (Set.mem_Ici.2 (Int.le_refl _)) beyond beyond) after
    · have risen := rises ⟨least, within⟩ ⟨best, Int.le_refl _⟩ within
      omega

end Quote

-- The two stakes at the top have between them the greatest value.
theorem Peaked.isGreatest {value : Int → Int} {best : Int} (peaked : Peaked value best) :
    IsGreatest (value '' Set.Ici 0) (max (value best) (value (best + 1))) := by
  have nonneg := peaked.best_nonneg
  constructor
  · rcases Int.le_total (value (best + 1)) (value best) with first | second
    · exact ⟨best, nonneg, (Int.max_eq_left first).symm⟩
    · exact ⟨best + 1, Int.le_trans nonneg (Int.le_of_lt (Int.lt_succ best)), (Int.max_eq_right second).symm⟩
  · rintro _ ⟨x, least, rfl⟩
    rcases Int.lt_or_le best x with beyond | within
    · exact Int.le_trans (peaked.falls (Set.mem_Ici.2 (Int.le_refl _)) beyond beyond)
        (Int.le_max_right _ _)
    · exact Int.le_trans (peaked.rises ⟨least, within⟩ ⟨nonneg, Int.le_refl _⟩ within)
        (Int.le_max_left _ _)

namespace Model

variable {board : Board} {holdings : Holdings} {i : Int}

-- All that is staked on an option is one's own.
def Owned (board : Board) (holdings : Holdings) (i : Int) : Prop :=
  takenAt board i = 0 ∧ 0 < ownAt holdings i

-- Nothing is skimmed, and every other option is owned.
def Surrounded (board : Board) (holdings : Holdings) (i : Int) : Prop :=
  board.skim = 0 ∧ ∀ j ∈ options, j ≠ i → Owned board holdings j

theorem shareAt_lt_wad (valid : board.Valid) (shared : ¬ Owned board holdings i) :
    shareAt board holdings i < wad := by
  have taken := takenAt_nonneg valid i
  unfold shareAt
  split
  · rename_i held
    have others : 0 < takenAt board i := lt_of_le_of_ne taken fun nobody => shared ⟨nobody.symm, held⟩
    rw [Int.fdiv_eq_ediv_of_nonneg _ (by omega), Int.ediv_lt_iff_lt_mul (by omega), Int.mul_comm wad]
    exact Int.mul_lt_mul_of_pos_right (by omega) wad_pos
  · exact wad_pos

theorem crossAt_lt (valid : board.Valid) (member : i ∈ options)
    (apart : ¬ Surrounded board holdings i) : crossAt board holdings i < Quote.maxCross := by
  have shares := shares_le valid holdings member
  have scale : 0 < bpsScale := by decide
  rw [crossAt_eq_sum board holdings member]
  apply Int.ediv_lt_of_lt_mul scale
  by_cases skimmed : board.skim = 0
  · obtain ⟨j, known, other, shared⟩ : ∃ j ∈ options, j ≠ i ∧ ¬ Owned board holdings j := by
      by_contra none
      push Not at none
      exact apart ⟨skimmed, none⟩
    have less : ∑ j ∈ grid.erase i, shareAt board holdings j < Quote.maxCross := by
      have each := Finset.sum_lt_sum (fun j _ => shareAt_le_wad valid holdings j)
        ⟨j, Finset.mem_erase.2 ⟨other, mem_grid.2 known⟩, shareAt_lt_wad valid shared⟩
      rw [Finset.sum_const, card_rivals member, nsmul_eq_mul] at each
      exact each
    rw [Board.keep, skimmed, Int.sub_zero, Int.mul_comm]
    exact Int.mul_lt_mul_of_pos_right less scale
  · have kept : board.keep < bpsScale := by
      have := valid.skim_nonneg
      rw [Board.keep]
      omega
    calc board.keep * ∑ j ∈ grid.erase i, shareAt board holdings j
        ≤ board.keep * Quote.maxCross := Int.mul_le_mul_of_nonneg_left shares (keep_nonneg valid)
      _ < bpsScale * Quote.maxCross := Int.mul_lt_mul_of_pos_right kept (by decide)
      _ = Quote.maxCross * bpsScale := Int.mul_comm _ _

end Model
end Parimutuel
