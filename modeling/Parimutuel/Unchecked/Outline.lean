import Parimutuel.Document
import Parimutuel.Unchecked.Entries

namespace Parimutuel

structure Outline where
  bets : List (Json × Json)
  bankroll : Json
  converged : Json := .bool true
  reason : Json := .text []
  price : Json := .int 0
  iterations : Json := .int 0
  expected : Json := .int 0
  deriving Repr

namespace Outline

def betDocument (p : Json × Json) : Json :=
  .ofFields [("option_index", p.1), ("stake_amount", p.2)]

def document? (o : Outline) : Except Failure Json := do
  let total ← Json.sum? (o.bets.map Prod.snd)
  return .ofFields [
    ("entries", .list (o.bets.map betDocument)),
    ("total_allocated", total),
    ("bankroll", o.bankroll),
    ("converged", o.converged),
    ("reason", o.reason),
    ("lambda_wad", o.price),
    ("solver_iterations", o.iterations),
    ("expected_value", o.expected)]

def isEmpty (o : Outline) : Bool := o.bets.isEmpty

-- Of two bets on one option the later holds.
def stakes? (o : Outline) : Except Failure Entries := Entries.ofPairs? o.bets

end Outline

def Plan.outline (p : Plan) : Outline where
  bets := p.bets.map fun b => (.int b.option, .int b.stake)
  bankroll := .int p.bankroll
  converged := .bool p.converged
  reason := .text p.reason
  price := .int p.price
  iterations := .int p.iterations
  expected := .int p.expected

theorem Outline.document?_outline (p : Plan) : p.outline.document? = .ok p.document := by
  have amounts : p.outline.bets.map Prod.snd = (p.bets.map Bet.stake).map Json.int := by
    simp only [Plan.outline, List.map_map]
    rfl
  have rows : p.outline.bets.map betDocument = p.bets.map Bet.document := by
    simp only [Plan.outline, List.map_map]
    rfl
  simp only [document?, amounts, rows, Json.sum?_int, bind, Except.bind]
  rfl

theorem Outline.stakes?_outline (p : Plan) :
    p.outline.stakes? = .ok (p.stakes.map Entries.ofStake) := by
  have pairs : p.outline.bets = (p.bets.map fun b => (b.option, b.stake)).map Entries.ofStake := by
    rw [List.map_map]
    rfl
  rw [stakes?, pairs, Entries.ofPairs?_stakes]
  rfl

end Parimutuel
