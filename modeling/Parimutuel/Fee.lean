import Parimutuel.Basic
import Parimutuel.Fault

namespace Parimutuel.Fee

structure Schedule where
  flat : Int := 0
  bps : Int := 0
  fixed : Int := 500
  deriving Repr, DecidableEq

namespace Schedule

-- The proportional part alone; a negative rate pays back.
def proportional (s : Schedule) (total : Int) : Int := total * s.bps / bpsScale

def feeFor (s : Schedule) (total : Int) : Int :=
  if total ≤ 0 then 0 else s.proportional total + s.flat + s.fixed

def Fits (s : Schedule) (available total : Int) : Prop :=
  total + s.proportional total ≤ available

instance (s : Schedule) (available total : Int) : Decidable (s.Fits available total) :=
  inferInstanceAs (Decidable (_ ≤ _))

-- The same without rounding: the total weighs `bpsScale + bps` in each basis point.
theorem fits_iff (s : Schedule) (available total : Int) :
    s.Fits available total ↔ total * (bpsScale + s.bps) < (available + 1) * bpsScale := by
  unfold Fits proportional bpsScale
  rw [Int.mul_add]
  generalize total * s.bps = part
  omega

def climb (s : Schedule) (positive : 0 < bpsScale + s.bps) (available total : Int) : Int :=
  if s.Fits available (total + 1) then climb s positive available (total + 1) else total
termination_by ((available + 1) * bpsScale - total * (bpsScale + s.bps)).toNat
decreasing_by
  rename_i fits
  have next := (fits_iff s available (total + 1)).1 fits
  have grown : (total + 1) * (bpsScale + s.bps) = total * (bpsScale + s.bps) + (bpsScale + s.bps) := by
    rw [Int.add_mul, Int.one_mul]
  omega

def descend (s : Schedule) (available total : Int) : Int :=
  if 0 < total ∧ ¬ s.Fits available total then descend s available (total - 1) else total
termination_by total.toNat

def available (s : Schedule) (gross : Int) : Int := gross - s.flat - s.fixed

-- The first guess: the proportional fee taken as if it were never rounded.
def estimate (s : Schedule) (gross : Int) : Int :=
  (s.available gross * bpsScale).fdiv (bpsScale + s.bps)

-- The largest total whose fees still fit in the balance. A rate that pays back the whole total
-- or more has no such total.
def net? (s : Schedule) (gross : Int) : Except Fault Int :=
  if s.available gross ≤ 0 then .ok 0
  else if bpsScale + s.bps = 0 then .error .divisionByZero
  else if positive : 0 < bpsScale + s.bps then
    .ok (s.descend (s.available gross) (s.climb positive (s.available gross) (s.estimate gross)))
  else .error .endlessRebate

theorem descend_fits (s : Schedule) (available total : Int) :
    s.descend available total ≤ 0 ∨ s.Fits available (s.descend available total) := by
  fun_induction descend s available total with
  | case1 _ _ ih => exact ih
  | case2 total h => grind

end Schedule
end Parimutuel.Fee
