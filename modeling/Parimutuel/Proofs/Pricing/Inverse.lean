import Parimutuel.Proofs.Acceptance
import Parimutuel.Proofs.Pricing.Peak

namespace Parimutuel

namespace Quote

variable {q : Quote}

theorem le_marginal_iff_le_peak (taken : 0 ≤ q.taken) (prize : 0 ≤ q.prize) {price x : Int}
    (least : 0 ≤ price) (positive : 1 ≤ x) (above : 1 ≤ q.hurdle price) :
    price ≤ q.marginal x ↔ x ≤ q.peak price := by
  rw [le_marginal_iff taken least positive, le_peak_iff taken prize positive,
    clampedHurdle_of_pos above]

end Quote

namespace Model

theorem optimum?_inverse {board : Board} {strategy : Strategy} {holdings : Holdings}
    {i price x : Int} (valid : board.Valid) (unitValue : 0 ≤ strategy.unitValue)
    (width : holdings.length = optionCount) (held : ∀ y ∈ holdings, 0 ≤ y) (member : i ∈ options)
    (least : 0 ≤ price) (positive : 1 ≤ x)
    (above : 1 ≤ 25 * (price + wad) - wad - crossAt board holdings i) :
    ∃ m worth best, price? board strategy holdings = .ok m ∧
      read? m.crosses i = .ok (crossAt board holdings i) ∧
      m.marginal? i x = .ok worth ∧ m.optimum? i price = .ok best ∧
      (price ≤ worth ↔ x ≤ best) := by
  have sound := priced_sound valid unitValue width held
  obtain ⟨taken, prize, _⟩ := sound.quoteAt_nonneg member
  have hurdle : ((priced board strategy holdings).quoteAt i).hurdle price =
      25 * (price + wad) - wad - crossAt board holdings i := by
    rw [Quote.hurdle, optionCount_cast, Int.max_eq_right least]
    rfl
  refine ⟨_, _, _, price?_ok strategy valid width, read_row member, sound.marginal? member x,
    sound.optimum? member price, ?_⟩
  exact Quote.le_marginal_iff_le_peak taken prize least positive (hurdle ▸ above)

-- Six units from others on option 0, and all of option 2 one's own: the square at the peak is 144.
def squareBoard : Board :=
  ⟨6 :: 542 :: List.replicate 23 0, List.replicate 25 0, 0, 1, true, 0⟩

def squareHoldings : Holdings := 0 :: 0 :: 10 :: List.replicate 22 0

-- The sixth unit is worth exactly nothing and the seventh less, so the peak is six.
theorem optimum?_inverse_square :
    ∃ m, price? squareBoard ⟨0, 1, 1, 1, 0, 2, 60, 2⟩ squareHoldings = .ok m ∧
      m.marginal? 0 6 = .ok 0 ∧ m.optimum? 0 0 = .ok 6 := by
  obtain ⟨m, six, best, pricing, _, sixth, peak, reached⟩ := @optimum?_inverse squareBoard
    ⟨0, 1, 1, 1, 0, 2, 60, 2⟩ squareHoldings 0 0 6 (by decide) (by decide) (by decide) (by decide)
    (by decide) (by decide) (by decide) (by decide)
  obtain ⟨n, seven, same, again, _, seventh, other, passed⟩ := @optimum?_inverse squareBoard
    ⟨0, 1, 1, 1, 0, 2, 60, 2⟩ squareHoldings 0 0 7 (by decide) (by decide) (by decide) (by decide)
    (by decide) (by decide) (by decide) (by decide)
  cases pricing.symm.trans again
  cases peak.symm.trans other
  have worth : (do (← price? squareBoard ⟨0, 1, 1, 1, 0, 2, 60, 2⟩ squareHoldings).marginal? 0 6) =
      .ok 0 := by decide
  have less : (do (← price? squareBoard ⟨0, 1, 1, 1, 0, 2, 60, 2⟩ squareHoldings).marginal? 0 7) =
      .ok (-136094674556213018) := by decide
  rw [pricing] at worth less
  cases sixth.symm.trans worth
  cases seventh.symm.trans less
  have exactly : best = 6 := by omega
  exact ⟨m, pricing, sixth, exactly ▸ peak⟩

end Model
end Parimutuel
