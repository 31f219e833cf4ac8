import Parimutuel.Pricing.Model

namespace Parimutuel

structure OptionReport where
  option : Int
  taken : Int
  optimum : Int
  gain : Int
  deriving Repr, DecidableEq

def OptionReport.pays (r : OptionReport) : Bool := 0 < r.gain

structure BoardReport where
  rows : List OptionReport
  deriving Repr, DecidableEq

namespace BoardReport

def paying (r : BoardReport) : List OptionReport := r.rows.filter OptionReport.pays

def totalOptimum (r : BoardReport) : Int := sumOf (r.paying.map OptionReport.optimum)

def totalGain (r : BoardReport) : Int := sumOf (r.paying.map OptionReport.gain)

def payingCount (r : BoardReport) : Nat := r.paying.length

def row? (m : Model) (i : Int) : Except Fault OptionReport := do
  let optimum ← m.optimum? i 0
  let gain ← m.value? i optimum
  return ⟨i, ← m.taken? i, optimum, gain⟩

-- The limits of the strategy play no part, only the price of the reward does.
def of? (board : Board) (unitValue : Int) : Except Fault BoardReport := do
  let m ← Model.bare? board { bankroll := 0, cap := 1, minBet := 1, unitValue }
  return ⟨← options.mapM (row? m)⟩

end BoardReport
end Parimutuel
