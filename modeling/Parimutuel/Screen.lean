import Parimutuel.Pricing.Model

namespace Parimutuel.Screen

-- A staked option can pay when its first unit does, since its value only falls off later; an
-- option that nobody staked can pay when the smallest bet does.
def promising? (m : Model) (minBet i : Int) : Except Fault Bool := do
  if ← m.flat? i then
    return decide ((← m.value? i minBet) > 0)
  else
    return decide ((← m.marginal? i 0) > 0)

def kept? (board : Board) (strategy : Strategy) : Except Fault (List Int) := do
  let m ← Model.bare? board strategy
  keepWhere? (promising? m strategy.minBet) options

end Parimutuel.Screen
