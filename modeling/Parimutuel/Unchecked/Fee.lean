import Parimutuel.Fee
import Parimutuel.Unchecked.Calculation

namespace Parimutuel.Fee

structure Tariff where
  flat : Json := .int 0
  bps : Json := .int 0
  fixed : Json := .int 500
  deriving Repr

namespace Tariff

def proportional? (t : Tariff) (total : Json) : Except Failure Json :=
  Json.productOver? total t.bps bpsScale

def feeFor? (t : Tariff) (total : Json) : Except Failure Json := do
  if ← Json.relate? .atMost total (.int 0) then return .int 0
  Json.add? (← Json.add? (← t.proportional? total) t.flat) t.fixed

def carries? (t : Tariff) (r : Relation) (available total : Json) : Except Failure Bool := do
  Json.relate? r (← Json.add? total (← t.proportional? total)) available

def climb? (t : Tariff) (available : Json) : Nat → Json → Except Failure Json
  | 0, total => .ok total
  | n + 1, total => do
    let next ← Json.add? total (.int 1)
    if ← t.carries? .atMost available next then climb? t available n next else return total

def descend? (t : Tariff) (available : Json) : Nat → Json → Except Failure Json
  | 0, total => .ok total
  | n + 1, total => do
    if !(← Json.relate? .greater total (.int 0)) then return total
    if ← t.carries? .greater available total then
      descend? t available n (← Json.subtract? total (.int 1))
    else return total

def schedule? (t : Tariff) : Option Schedule :=
  match t.flat.position?, t.bps.position?, t.fixed.position? with
  | some flat, some bps, some fixed => some ⟨flat, bps, fixed⟩
  | _, _, _ => none

def net? (corrections : Nat) (t : Tariff) (gross : Json) : Except Failure Json := do
  match t.schedule?, gross.position? with
  | some s, some n => Json.ofInt? (s.net? n)
  | _, _ =>
    let available ← Json.subtract? (← Json.subtract? gross t.flat) t.fixed
    if ← Json.relate? .atMost available (.int 0) then return .int 0
    let scaled ← Json.multiply? available (.int bpsScale)
    let estimate ← Json.floorDivide? scaled (← Json.add? (.int bpsScale) t.bps)
    descend? t available corrections (← climb? t available corrections estimate)

end Tariff

def Schedule.tariff (s : Schedule) : Tariff := ⟨.int s.flat, .int s.bps, .int s.fixed⟩

theorem Tariff.feeFor?_tariff (s : Schedule) (total : Int) :
    s.tariff.feeFor? (.int total) = .ok (.int (s.feeFor total)) := by
  have scale : divide? (total * s.bps) bpsScale = .ok (total * s.bps / bpsScale) := by
    rw [divide?_ok (by decide), Int.fdiv_eq_ediv_of_nonneg _ (by decide)]
  simp only [feeFor?, proportional?, Schedule.tariff, Schedule.feeFor, Schedule.proportional,
    Json.relate?_int, Relation.ofInts, Json.productOver?, Json.isRow, Json.multiply?_int,
    Json.floorDivide?_int, scale, Json.ofInt?, Except.map, mapError_ok, Json.add?_int, bind,
    Except.bind, pure, Except.pure, Bool.false_eq_true, if_false, decide_eq_true_eq]
  split <;> rfl

theorem Tariff.net?_tariff (corrections : Nat) (s : Schedule) (gross : Int) :
    s.tariff.net? corrections (.int gross) = Json.ofInt? (s.net? gross) := rfl

end Parimutuel.Fee
