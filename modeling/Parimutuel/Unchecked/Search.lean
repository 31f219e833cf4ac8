import Parimutuel.ShadowPrice
import Parimutuel.Unchecked.Appraisal

namespace Parimutuel

structure Budget where
  bankroll : Json
  cap : Json
  tick : Json
  iterations : Json := .int 60
  deriving Repr

structure Allotment where
  price : Json := .int 0
  stakes : Entries := []
  aggregate : Json := .int 0
  iterations : Nat := 0
  converged : Bool := true
  deriving Repr

namespace Allotment

def demand? (a : Appraisal) (cap : Json) (candidates : List Json) (price : Json) :
    Except Failure Entries :=
  candidates.mapM fun i => do return (i, ← Json.smaller? (← a.optimum? i price) cap)

-- Whether two values name one option; a fraction names none.
def samePlace (left right : Json) : Bool :=
  match left.number?, right.number? with
  | some (.whole a), some (.whole b) => a == b
  | _, _ => false

-- Candidates that name one option are one, of the kind that comes first. One that names no option
-- stays, for the search to refuse it.
def distinct (candidates : List Json) : List Json := candidates.eraseDupsBy samePlace

def positive? : Entries → Except Failure Entries
  | [] => .ok []
  | (key, amount) :: rest => do
    let staked ← Json.relate? .greater amount (.int 0)
    let others ← positive? rest
    return if staked then (key, amount) :: others else others

def funded? (e : Entries) : Except Failure Entries := do positive? (← e.sorted?)

-- One above the greatest marginal value of a first unit, at least 1.
def ceiling? (a : Appraisal) (candidates : List Json) : Except Failure Json := do
  match ← candidates.mapM fun i => a.marginal? i (.int 0) with
  | [] => throw (.fault .nothingGreatest)
  | first :: rest => Json.larger? (.int 1) (← Json.add? (← rest.foldlM Json.larger? first) (.int 1))

-- Prices around the one looked for, with what is taken at the higher one.
structure Bracket where
  low : Json
  high : Json
  upper : Entries
  deriving Repr

def Bracket.exceeds? (b : Bracket) (bankroll : Json) : Except Failure Bool := do
  Json.relate? .greater (← b.upper.total?) bankroll

-- Doubles the higher price until its demand fits, at most `n` times.
def widen? (demand : Json → Except Failure Entries) (bankroll : Json) :
    Nat → Bracket → Except Failure Bracket
  | 0, b => .ok b
  | n + 1, b => do
    if ← b.exceeds? bankroll then
      let high ← Json.multiply? b.high (.int 2)
      widen? demand bankroll n ⟨b.high, high, ← demand high⟩
    else return b

-- Less than a tick is left over, or the prices are neighbours.
def Bracket.closed? (b : Bracket) (t : Budget) : Except Failure Bool := do
  let left ← Json.subtract? t.bankroll (← b.upper.total?)
  if ← Json.relate? .less left t.tick then return true
  Json.relate? .atMost (← Json.subtract? b.high b.low) (.int 1)

-- Takes the middle price for the side on which its demand lies.
def Bracket.halve? (demand : Json → Except Failure Entries) (bankroll : Json) (b : Bracket) :
    Except Failure Bracket := do
  let middle ← Json.floorDivide? (← Json.add? b.low b.high) (.int 2)
  let trial ← demand middle
  return if ← Json.relate? .greater (← trial.total?) bankroll then { b with low := middle }
    else { b with high := middle, upper := trial }

-- A bracket of integers is closed after as many halvings as the number of its prices has bits.
def Bracket.halvings (b : Bracket) : Nat :=
  match b.low, b.high with
  | .int low, .int high => (high - low).toNat.log2 + 2
  | _, _ => 0

-- Halves until the bracket is closed or all iterations are used up; also says how often it did and
-- whether it was closed.
def narrow? (demand : Json → Except Failure Entries) (t : Budget) :
    Nat → Nat → Bracket → Except Failure (Bracket × Nat × Bool)
  | 0, steps, b => .ok (b, steps, false)
  | n + 1, steps, b => do
    if ← b.closed? t then return (b, steps, true)
    if ← Json.relate? .atLeast (.int steps) t.iterations then return (b, steps, false)
    narrow? demand t n (steps + 1) (← b.halve? demand t.bankroll)

def of? (a : Appraisal) (candidates : List Json) (t : Budget) : Except Failure Allotment := do
  if candidates.isEmpty then return {}
  if ← Json.relate? .atMost t.bankroll (.int 0) then return {}
  let demand := demand? a t.cap (distinct candidates)
  let all ← demand (.int 0)
  let most ← all.total?
  if ← Json.relate? .atMost most t.bankroll then
    return { stakes := ← funded? all, aggregate := most }
  let top ← ceiling? a candidates
  let start ← widen? demand t.bankroll ShadowPrice.doublings ⟨.int 0, top, ← demand top⟩
  if ← start.exceeds? t.bankroll then return { price := start.high, converged := false }
  let (last, steps, closed) ← narrow? demand t start.halvings 0 start
  return {
    price := last.high
    stakes := ← funded? last.upper
    aggregate := ← last.upper.total?
    iterations := steps
    converged := closed }

end Allotment
end Parimutuel
