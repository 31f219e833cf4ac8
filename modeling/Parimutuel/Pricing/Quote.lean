import Parimutuel.Basic
import Parimutuel.Fault
import Parimutuel.Pricing.Root

namespace Parimutuel

-- `cross` is fixed-point: `wad` of it is one unit.
structure Quote where
  taken : Int
  prize : Int
  cross : Int
  deriving Repr, DecidableEq

namespace Quote

-- What a positive stake pays when each option wins once, in fixed point: the stake itself, its
-- part of the prize, and what it adds to the other options held.
def payout (q : Quote) (stake : Int) : Int :=
  stake * wad + (stake * q.prize * wad).fdiv (q.taken + stake) + stake * q.cross

-- Expected gain of a positive stake, in bankroll units.
def gain (q : Quote) (stake : Int) : Int := q.payout stake / (optionCount * wad) - stake

def value? (q : Quote) (stake : Int) : Except Fault Int :=
  if stake ≤ 0 then .ok 0
  else if q.taken + stake = 0 then .error .divisionByZero
  else .ok (q.gain stake)

-- How fast the own part of the prize grows, in fixed point. Whoever is alone on an option has all
-- of the prize already.
def slope (q : Quote) (stake : Int) : Int :=
  if 0 < q.taken then (q.taken * q.prize * wad).fdiv ((q.taken + stake) * (q.taken + stake)) else 0

-- Expected gain of one more unit, in fixed point; a negative stake counts as none.
def marginal (q : Quote) (stake : Int) : Int :=
  (wad + q.slope (max 0 stake) + q.cross) / optionCount - wad

-- What the slope has to exceed for a unit to be worth `price`.
def hurdle (q : Quote) (price : Int) : Int :=
  optionCount * (max 0 price + wad) - wad - q.cross

def clampedHurdle (q : Quote) (price : Int) : Int := max 1 (q.hurdle price)

-- The square of others' and own stake together at which the slope meets the hurdle.
def peakSquare (q : Quote) (price : Int) : Int :=
  (q.taken * q.prize * wad).fdiv (q.clampedHurdle price)

-- The stake at which the marginal value falls to `price`, never below nothing. An option that
-- nobody else staked, or one without a prize, has no such interior point.
def optimum? (q : Quote) (price : Int) : Except Fault Int :=
  if q.taken = 0 ∨ q.prize = 0 then .ok 0
  else if q.peakSquare price < 0 then .error .negativeRoot
  else .ok (max 0 (floorRoot (q.peakSquare price).toNat - q.taken))

theorem value?_of_nonneg (q : Quote) (stake : Int) (taken : 0 ≤ q.taken) :
    q.value? stake = .ok (if stake ≤ 0 then 0 else q.gain stake) := by
  unfold value?
  split
  · rfl
  · rw [if_neg (by omega)]

end Quote
end Parimutuel
