import Parimutuel.Observation
import Parimutuel.Pricing.Model
import Parimutuel.Unchecked.Pool

namespace Parimutuel

structure Appraisal where
  observation : Observation
  draft : Draft
  holdings : Holdings
  reward : Json
  prizes : List Json
  crosses : List Json
  deriving Repr

namespace Appraisal

def share? (stakes : List Json) (holdings : Holdings) (i : Int) : Except Failure Json := do
  let own ← (read? holdings i).mapError .fault
  if own > 0 then
    let taken ← Json.at? stakes (.int i)
    Json.floorDivide? (.int (own * wad)) (← Json.add? taken (.int own))
  else return .int 0

def skimmed? (keep amount : Json) : Except Failure Json := do
  Json.floorDivide? (← Json.multiply? keep amount) (.int bpsScale)

def prize? (stakes : List Json) (holdings : Holdings) (keep total reward : Json) (i : Int) :
    Except Failure Json := do
  let others ← Json.subtract? total (← Json.at? stakes (.int i))
  let all ← Json.add? others (.int holdings.total)
  let own ← (read? holdings i).mapError .fault
  Json.add? (← skimmed? keep (← Json.subtract? all (.int own))) reward

def of? (o : Observation) (d : Draft) (holdings : Holdings) : Except Failure Appraisal := do
  let keep ← Json.subtract? (.int bpsScale) o.skim
  let reward ← Json.productOver? o.reward d.unitValue rewardScale
  let total ← Json.sum? o.stakes
  let shares ← options.mapM (share? o.stakes holdings)
  let whole ← Json.sum? shares
  let prizes ← options.mapM (prize? o.stakes holdings keep total reward)
  let crosses ← shares.mapM fun share => do skimmed? keep (← Json.subtract? whole share)
  return { observation := o, draft := d, holdings, reward, prizes, crosses }

def bare? (o : Observation) (d : Draft) : Except Failure Appraisal := of? o d .none

def withPool? (a : Appraisal) (pool : Pool) : Except Failure Appraisal := do
  of? a.observation a.draft (← pool.holdings?)

def taken? (a : Appraisal) (index : Json) : Except Failure Json :=
  Json.at? a.observation.stakes index

def prizeOf? (a : Appraisal) (index : Json) : Except Failure Json := Json.at? a.prizes index

def crossOf? (a : Appraisal) (index : Json) : Except Failure Json := Json.at? a.crosses index

def flat? (a : Appraisal) (index : Json) : Except Failure Bool := do
  return (← a.taken? index).isZero

def value? (a : Appraisal) (index stake : Json) : Except Failure Json := do
  if ← Json.relate? .atMost stake (.int 0) then return .int 0
  let taken ← a.taken? index
  let back ← Json.multiply? stake (.int wad)
  let prize ← Json.multiply? (← Json.multiply? stake (← a.prizeOf? index)) (.int wad)
  let part ← Json.floorDivide? prize (← Json.add? taken stake)
  let own ← Json.add? back part
  let payout ← Json.add? own (← Json.multiply? stake (← a.crossOf? index))
  Json.subtract? (← Json.floorDivide? payout (.int (optionCount * wad))) stake

def slope? (a : Appraisal) (index taken stake : Json) : Except Failure Json := do
  if ← Json.relate? .greater taken (.int 0) then
    let prize ← Json.multiply? (← Json.multiply? taken (← a.prizeOf? index)) (.int wad)
    Json.floorDivide? prize (← Json.square? (← Json.add? taken stake))
  else return .int 0

def marginal? (a : Appraisal) (index stake : Json) : Except Failure Json := do
  let stake ← Json.larger? (.int 0) stake
  let slope ← a.slope? index (← a.taken? index) stake
  let gain ← Json.add? (← Json.add? (.int wad) slope) (← a.crossOf? index)
  Json.subtract? (← Json.floorDivide? gain (.int optionCount)) (.int wad)

-- What the slope has to exceed for a unit to be worth `price`, at least 1.
def hurdle? (a : Appraisal) (index price : Json) : Except Failure Json := do
  let worth ← Json.add? (← Json.larger? (.int 0) price) (.int wad)
  let due ← Json.subtract? (← Json.multiply? (.int optionCount) worth) (.int wad)
  let hurdle ← Json.subtract? due (← a.crossOf? index)
  return if ← Json.relate? .less hurdle (.int 1) then .int 1 else hurdle

def optimum? (a : Appraisal) (index price : Json) : Except Failure Json := do
  let taken ← a.taken? index
  let prize ← a.prizeOf? index
  if taken.isZero || prize.isZero then return .int 0
  let hurdle ← a.hurdle? index price
  let square ← Json.multiply? (← Json.multiply? taken prize) (.int wad)
  let root ← Json.root? (← Json.floorDivide? square hurdle)
  Json.larger? (.int 0) (← Json.subtract? root taken)

end Appraisal
end Parimutuel
