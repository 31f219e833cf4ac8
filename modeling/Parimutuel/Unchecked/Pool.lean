import Parimutuel.Pricing.Model
import Parimutuel.Unchecked.Entries

namespace Parimutuel

inductive Pool where
  | row (amounts : List Json)
  | entries (pairs : List (Json × Json))
  deriving Repr

namespace Pool

-- The places of a fraction are dropped.
def amount? : Json → Except Failure Int
  | .int n => .ok n
  | .bool b => .ok (if b then 1 else 0)
  | .real .nan => .error (.misused .undefinedAmount)
  | .real (.infinite _) => .error (.misused .infiniteAmount)
  | .real (.finite negative mantissa exponent) => .ok (Binary64.whole negative mantissa exponent)
  | .text t => (Text.integer? t).mapError .numeral
  | value => .error (.misused (.notAmount value.kind))

-- The amount is worked out before the number is looked at.
def enter? (row : Holdings) (p : Json × Json) : Except Failure Holdings := do
  let amount ← amount? p.2
  match p.1.position? with
  | some i => (write? row i (max 0 amount)).mapError .fault
  | none => .error (.misused (.notPosition p.1.kind))

def holdings? : Pool → Except Failure Holdings
  | .row amounts => do return Holdings.ofAmounts (← amounts.mapM amount?)
  | .entries pairs => do (← Entries.ofPairs? pairs).foldlM enter? Holdings.none

theorem foldlM_enter (s : Stakes) (row : Holdings) :
    (s.map Entries.ofStake).foldlM enter? row =
      (s.foldlM (fun row p => write? row p.1 (max 0 p.2)) row).mapError .fault := by
  induction s generalizing row with
  | nil => rfl
  | cons p rest ih =>
    rw [List.map_cons, List.foldlM_cons, List.foldlM_cons]
    have first : enter? row (Entries.ofStake p) = (write? row p.1 (max 0 p.2)).mapError .fault := rfl
    rw [first]
    cases write? row p.1 (max 0 p.2) with
    | error fault => rfl
    | ok next => exact ih next

theorem holdings?_entries (pairs : List (Int × Int)) :
    (Pool.entries (pairs.map Entries.ofStake)).holdings? =
      (Holdings.ofStakes? (Stakes.ofPairs pairs)).mapError .fault := by
  simp only [holdings?, Entries.ofPairs?_stakes, bind, Except.bind, foldlM_enter]
  rfl

end Pool
end Parimutuel
