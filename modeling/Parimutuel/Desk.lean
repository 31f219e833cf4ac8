import Parimutuel.Journal
import Parimutuel.Observation

namespace Parimutuel

-- The board is checked before the strategy, and both before anything else.
def planBy? (passing : Planner.Passing) (room : Nat) (o : Observation) (d : Draft) :
    Except Failure Round := do
  let board ← o.check? room
  let strategy ← d.check? room
  (Planner.round? passing board strategy).mapError .fault

def planObserved? (room : Nat) (o : Observation) (d : Draft) : Except Failure Round :=
  planBy? Planner.refine? room o d

-- What the protocol fixes for all rounds. Nothing is remembered from one round to the next.
structure Desk where
  skim : Json
  reward : Json := .int 0
  deriving Repr

-- What changes from round to round. Anything that can be taken as a row is one.
structure Desk.Request where
  stakes : Json
  bettors : Json
  remaining : Json
  draft : Draft
  isOpen : Json := .bool true
  deriving Repr

def Desk.observation? (desk : Desk) (r : Desk.Request) : Except Json.Misuse Observation := do
  let stakes ← r.stakes.items?
  let bettors ← r.bettors.items?
  return {
    stakes, bettors
    skim := desk.skim
    remaining := r.remaining
    isOpen := r.isOpen
    reward := desk.reward }

def Desk.round? (room : Nat) (desk : Desk) (r : Desk.Request) : Except Failure Round := do
  planObserved? room (← (desk.observation? r).mapError .misused) r.draft

def Round.closing (r : Round) : Event :=
  let p := r.plan
  if p.isEmpty then .emptyRound (Text.toString p.reason) r.board.remaining
  else .plannedRound p.bets.length p.total p.expected p.converged

end Parimutuel
