import Parimutuel.Stakes
import Parimutuel.Text.Basic

namespace Parimutuel

structure Bet where
  option : Int
  stake : Int
  deriving Repr, DecidableEq

structure Plan where
  bets : List Bet
  bankroll : Int
  converged : Bool := true
  reason : Text := []
  price : Int := 0
  iterations : Int := 0
  expected : Int := 0
  deriving Repr, DecidableEq

inductive Reason where
  | tooEarly
  | roundLocked
  | emptyBankroll
  | infeasibleBudget
  | noPositiveValue
  | nothingLeft
  deriving Repr, DecidableEq

def Reason.word : Reason → String
  | .tooEarly => "too_early"
  | .roundLocked => "round_locked"
  | .emptyBankroll => "empty_bankroll"
  | .infeasibleBudget => "infeasible_budget"
  | .noPositiveValue => "no_positive_ev"
  | .nothingLeft => "nothing_after_snapping"

theorem Reason.word_ne_empty (r : Reason) : r.word ≠ "" := by cases r <;> decide

namespace Plan

def empty (bankroll : Int) (reason : Reason) : Plan :=
  { bets := [], bankroll, reason := Text.ofString reason.word }

def total (p : Plan) : Int := sumOf (p.bets.map Bet.stake)

def isEmpty (p : Plan) : Bool := p.bets.isEmpty

-- The bets as stakes; of two bets on one option the later holds.
def stakes (p : Plan) : Stakes := Stakes.ofPairs (p.bets.map fun b => (b.option, b.stake))

end Plan
end Parimutuel
