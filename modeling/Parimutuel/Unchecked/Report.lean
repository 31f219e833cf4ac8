import Parimutuel.Document
import Parimutuel.Unchecked.Appraisal

namespace Parimutuel

structure StatedRow where
  option : Int
  taken : Json
  optimum : Json
  gain : Json
  pays : Bool
  deriving Repr

structure StatedReport where
  rows : List StatedRow
  deriving Repr

def StatedRow.document (r : StatedRow) : Json :=
  .ofFields [
    ("index", .int r.option),
    ("existing_stake", r.taken),
    ("optimal_stake", r.optimum),
    ("expected_value", r.gain),
    ("is_positive", .bool r.pays)]

namespace StatedReport

def row? (a : Appraisal) (i : Int) : Except Failure StatedRow := do
  let optimum ← a.optimum? (.int i) (.int 0)
  let gain ← a.value? (.int i) optimum
  let taken ← a.taken? (.int i)
  return ⟨i, taken, optimum, gain, ← Json.relate? .greater gain (.int 0)⟩

-- The limits of the draft play no part, only the price of the reward does.
def of? (o : Observation) (unitValue : Json) : Except Failure StatedReport := do
  let a ← Appraisal.bare? o { bankroll := .int 0, cap := .int 1, minBet := .int 1, unitValue }
  return ⟨← options.mapM (row? a)⟩

def document? (r : StatedReport) : Except Failure Json := do
  let paying := r.rows.filter StatedRow.pays
  let optimum ← Json.sum? (paying.map StatedRow.optimum)
  let gain ← Json.sum? (paying.map StatedRow.gain)
  return .ofFields [
    ("options", .list (r.rows.map StatedRow.document)),
    ("total_optimal_stake", optimum),
    ("total_expected_value", gain),
    ("positive_count", .int paying.length)]

end StatedReport
end Parimutuel
