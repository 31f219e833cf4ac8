import Parimutuel.BoardReport
import Parimutuel.Json.Writer
import Parimutuel.Plan

namespace Parimutuel

def Bet.document (b : Bet) : Json :=
  .ofFields [("option_index", .int b.option), ("stake_amount", .int b.stake)]

def Plan.document (p : Plan) : Json :=
  .ofFields [
    ("entries", .list (p.bets.map Bet.document)),
    ("total_allocated", .int p.total),
    ("bankroll", .int p.bankroll),
    ("converged", .bool p.converged),
    ("reason", .text p.reason),
    ("lambda_wad", .int p.price),
    ("solver_iterations", .int p.iterations),
    ("expected_value", .int p.expected)]

def OptionReport.document (r : OptionReport) : Json :=
  .ofFields [
    ("index", .int r.option),
    ("existing_stake", .int r.taken),
    ("optimal_stake", .int r.optimum),
    ("expected_value", .int r.gain),
    ("is_positive", .bool r.pays)]

def BoardReport.document (r : BoardReport) : Json :=
  .ofFields [
    ("options", .list (r.rows.map OptionReport.document)),
    ("total_optimal_stake", .int r.totalOptimum),
    ("total_expected_value", .int r.totalGain),
    ("positive_count", .int r.payingCount)]

end Parimutuel
