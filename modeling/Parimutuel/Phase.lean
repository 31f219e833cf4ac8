namespace Parimutuel

inductive Phase where
  | early
  | closing
  | locked
  deriving Repr, DecidableEq

namespace Phase

-- A round is locked only when both signals agree; a closed flag with time left still plans, and
-- the countdown alone decides between early and closing.
def of (remaining threshold : Int) (isOpen : Bool) : Phase :=
  if remaining ≤ 0 ∧ isOpen = false then .locked
  else if remaining > threshold then .early
  else .closing

def word : Phase → String
  | .early => "open"
  | .closing => "closing_soon"
  | .locked => "locked"

end Phase

def remainingUnits (endSlot currentSlot : Int) : Int := max 0 (endSlot - currentSlot)

end Parimutuel
