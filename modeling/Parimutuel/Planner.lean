import Parimutuel.Phase
import Parimutuel.Plan
import Parimutuel.Screen
import Parimutuel.ShadowPrice
import Parimutuel.Snap

namespace Parimutuel

-- What a planning that reached the search has done. `solutions` holds every search in order,
-- `chosen` the one whose stakes were snapped.
structure Trace where
  candidates : List Int
  funded : Stakes
  budget : Int
  solutions : List Solution
  chosen : Solution
  snapped : Snapped
  bets : List Bet
  expected : Int
  deriving Repr, DecidableEq

-- `idle` stopped before any option was priced, `hopeless` after the screen.
inductive Course where
  | idle (reason : Reason)
  | hopeless
  | full (trace : Trace)
  deriving Repr, DecidableEq

namespace Planner

def idle? (board : Board) (s : Strategy) : Option Reason :=
  match Phase.of board.remaining s.threshold board.isOpen with
  | .early => some .tooEarly
  | .locked => some .roundLocked
  | .closing =>
    if s.bankroll = 0 then some .emptyBankroll
    else if s.bankroll < s.minBet then some .infeasibleBudget
    else none

-- Best value first, and among equals the lower option.
def ranked (valued : List (Int × Int)) : List Int :=
  (valued.mergeSort fun p q => decide (q.2 < p.2) || (decide (p.2 = q.2) && decide (p.1 ≤ q.1))).map
    Prod.fst

def fund (minBet : Int) : Int → List Int → Stakes
  | _, [] => []
  | budget, i :: rest =>
    if budget < minBet then [] else (i, minBet) :: fund minBet (budget - minBet) rest

-- The value of an option that nobody staked only falls above the smallest bet, so these options
-- get exactly that, ahead of the search.
def fundFlat? (base : Model) (candidates : List Int) (s : Strategy) : Except Fault Stakes := do
  let flat ← keepWhere? base.flat? candidates
  let valued ← flat.mapM fun i => do return (i, ← base.value? i s.minBet)
  return fund s.minBet s.bankroll (ranked valued)

def terms (s : Strategy) (budget : Int) : Terms := ⟨budget, s.cap, s.tick, s.iterations⟩

def search? (base : Model) (staked : List Int) (t : Terms) (held : Stakes) :
    Except Fault Solution := do
  ShadowPrice.solve? (← base.withStakes? held) staked t

-- A way to search again with what the last search found: the solution to use, and every search made.
abbrev Passing := (Stakes → Except Fault Solution) → Stakes → Nat → Solution →
  Except Fault (Solution × List Solution)

-- Until a pass changes nothing or the passes are used up.
def refine? (search : Stakes → Except Fault Solution) (funded : Stakes) :
    Nat → Solution → Except Fault (Solution × List Solution)
  | 0, current => .ok (current, [])
  | n + 1, current => do
    let next ← search (funded.merge current.stakes)
    if next.stakes = current.stakes then
      return (current, [next])
    else
      let (last, later) ← refine? search funded n next
      return (last, next :: later)

def betsOf (s : Stakes) : List Bet :=
  ((Stakes.sorted s).filter fun p => 0 < p.2).map fun p => ⟨p.1, p.2⟩

-- What the bets gain together, each under the model priced against all of them.
def expected? (m : Model) (bets : List Bet) : Except Fault Int := do
  return sumOf (← bets.mapM fun b => m.value? b.option b.stake)

def trace? (passing : Passing) (board : Board) (s : Strategy) (candidates : List Int) :
    Except Fault Trace := do
  let base ← Model.bare? board s
  let funded ← fundFlat? base candidates s
  let staked ← keepWhere? (fun i => do return !(← base.flat? i)) candidates
  let budget := s.bankroll - funded.total
  let search := search? base staked (terms s budget)
  let first ← search funded
  let (chosen, later) ← passing search funded s.passes.toNat first
  let snapped ← Snap.snap? base (chosen.stakes.merge funded) s
  let bets := betsOf snapped.stakes
  let expected ← expected? snapped.model bets
  return { candidates, funded, budget, solutions := first :: later, chosen, snapped, bets, expected }

def course? (passing : Passing) (board : Board) (s : Strategy) : Except Fault Course :=
  match idle? board s with
  | some reason => .ok (.idle reason)
  | none => do
    let candidates ← Screen.kept? board s
    if candidates = [] then return .hopeless else return .full (← trace? passing board s candidates)

end Planner

structure Round where
  board : Board
  strategy : Strategy
  course : Course
  deriving Repr, DecidableEq

def Planner.round? (passing : Planner.Passing) (board : Board) (strategy : Strategy) :
    Except Fault Round := do
  return { board, strategy, course := ← Planner.course? passing board strategy }

def Trace.plan (t : Trace) (bankroll : Int) : Plan where
  bets := t.bets
  bankroll := bankroll
  converged := t.chosen.converged
  reason := if t.bets = [] then Text.ofString Reason.nothingLeft.word else []
  price := t.chosen.price
  iterations := t.chosen.iterations
  expected := t.expected

def Round.plan (r : Round) : Plan :=
  match r.course with
  | .idle reason => .empty r.strategy.bankroll reason
  | .hopeless => .empty r.strategy.bankroll .noPositiveValue
  | .full t => t.plan r.strategy.bankroll

end Parimutuel
