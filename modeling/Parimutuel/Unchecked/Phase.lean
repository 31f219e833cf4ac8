import Parimutuel.Phase
import Parimutuel.Unchecked.Calculation

namespace Parimutuel

-- Whether the countdown has run out is asked before the threshold is looked at.
def Phase.of? (remaining threshold isOpen : Json) : Except Failure Phase := do
  let ended ← Json.relate? .atMost remaining (.int 0)
  if ended && !isOpen.truth then return .locked
  if ← Json.relate? .greater remaining threshold then return .early
  return .closing

theorem Phase.of?_int (remaining threshold : Int) (isOpen : Bool) :
    Phase.of? (.int remaining) (.int threshold) (.bool isOpen) =
      .ok (Phase.of remaining threshold isOpen) := by
  simp only [Phase.of?, Phase.of, Json.relate?_int, Relation.ofInts, Json.truth, bind, Except.bind,
    pure, Except.pure, Bool.and_eq_true, Bool.not_eq_true', decide_eq_true_eq]
  split
  · rfl
  · split <;> rfl

end Parimutuel
