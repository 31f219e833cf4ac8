import Parimutuel.Pricing.Model

namespace Parimutuel

-- What the search may spend. `tick` is how close to the bankroll it has to come, `iterations`
-- how often it may halve the bracket.
structure Terms where
  bankroll : Int
  cap : Int
  tick : Int
  iterations : Int := 60
  deriving Repr, DecidableEq

-- How a search came to its end: there was nothing to search, everybody's wish could be granted,
-- the bracket was closed or the halvings were used up, or no price was high enough.
inductive Ending where
  | idle
  | saturated
  | searched
  | unbracketed
  deriving Repr, DecidableEq

-- `aggregate` is what all candidates take together; only stakes above zero are listed.
structure Solution where
  ending : Ending
  price : Int := 0
  stakes : Stakes := []
  aggregate : Int := 0
  iterations : Nat := 0
  converged : Bool := true
  deriving Repr, DecidableEq

namespace ShadowPrice

def demand? (m : Model) (cap : Int) (candidates : List Int) (price : Int) :
    Except Fault Stakes :=
  candidates.mapM fun i => do return (i, min (← m.optimum? i price) cap)

def funded (s : Stakes) : Stakes :=
  Stakes.sorted (s.filter fun p => 0 < p.2)

def greatest? : List Int → Except Fault Int
  | [] => .error .nothingGreatest
  | x :: rest => .ok (rest.foldl max x)

-- One above the greatest marginal value of a first unit: at this price nobody wants anything.
def ceiling? (m : Model) (candidates : List Int) : Except Fault Int := do
  let first ← candidates.mapM fun i => m.marginal? i 0
  return max 1 ((← greatest? first) + 1)

-- Prices around the one looked for, with what is taken at the higher one.
structure Bracket where
  low : Int
  high : Int
  upper : Stakes
  deriving Repr, DecidableEq

def Bracket.fits (b : Bracket) (bankroll : Int) : Bool := b.upper.total ≤ bankroll

-- Doubles the higher price until its demand fits, at most `n` times.
def widen? (demand : Int → Except Fault Stakes) (bankroll : Int) :
    Nat → Bracket → Except Fault Bracket
  | 0, b => .ok b
  | n + 1, b =>
    if b.fits bankroll then .ok b
    else do widen? demand bankroll n ⟨b.high, b.high * 2, ← demand (b.high * 2)⟩

def doublings : Nat := 128

-- Less than a tick is left over, or the prices are neighbours.
def Bracket.closed (b : Bracket) (t : Terms) : Bool :=
  t.bankroll - b.upper.total < t.tick || b.high - b.low ≤ 1

-- Takes the middle price for the side on which its demand lies.
def Bracket.halve? (demand : Int → Except Fault Stakes) (bankroll : Int) (b : Bracket) :
    Except Fault Bracket := do
  let middle := (b.low + b.high) / 2
  let trial ← demand middle
  return if trial.total > bankroll then { b with low := middle }
    else { b with high := middle, upper := trial }

-- Halves until the bracket is closed, at most `n` times; also says how often it did.
def narrow? (demand : Int → Except Fault Stakes) (t : Terms) :
    Nat → Bracket → Except Fault (Bracket × Nat)
  | 0, b => .ok (b, 0)
  | n + 1, b =>
    if b.closed t then .ok (b, 0)
    else do
      let (last, steps) ← narrow? demand t n (← b.halve? demand t.bankroll)
      return (last, steps + 1)

def solve? (m : Model) (candidates : List Int) (t : Terms) : Except Fault Solution := do
  if candidates = [] ∨ t.bankroll ≤ 0 then
    return { ending := .idle }
  let demand := demand? m t.cap candidates.eraseDups
  let all ← demand 0
  if all.total ≤ t.bankroll then
    return { ending := .saturated, stakes := funded all, aggregate := all.total }
  let top ← ceiling? m candidates
  let start ← widen? demand t.bankroll doublings ⟨0, top, ← demand top⟩
  if start.fits t.bankroll then
    let (last, steps) ← narrow? demand t t.iterations.toNat start
    return {
      ending := .searched
      price := last.high
      stakes := funded last.upper
      aggregate := last.upper.total
      iterations := steps
      converged := last.closed t }
  else
    return { ending := .unbracketed, price := start.high, converged := false }

end ShadowPrice
end Parimutuel
