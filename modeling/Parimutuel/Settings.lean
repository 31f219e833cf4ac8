import Parimutuel.Fee
import Parimutuel.Fault
import Parimutuel.Text.Numeral

namespace Parimutuel

abbrev Variables := List (Text × Text)

structure Settings where
  logLevel : Text := Text.ofString "INFO"
  verbose : Bool := false
  bankroll : Int := 0
  gross : Option Int := none
  cap : Int := 100000000
  minBet : Int := 10000
  tick : Int := 1
  unitValue : Int := 800000000
  threshold : Int := 2
  iterations : Int := 60
  passes : Int := 2
  skim : Int := defaultSkim
  reward : Int := 0
  fees : Fee.Schedule := {}
  deriving Repr, DecidableEq

namespace Settings

def lookup? (env : Variables) (name : String) : Option Text := env.lookup (Text.ofString name)

def optional? (env : Variables) (name : String) : Except Text.NumeralError (Option Int) :=
  match lookup? env name with
  | none => .ok none
  | some t =>
    if Text.strip t = [] then .ok none
    else (Text.integer? (t.filter (· != Text.underscore))).map some

def number? (env : Variables) (name : String) (default : Int) : Except Text.NumeralError Int := do
  return (← optional? env name).getD default

def yesWords : List Text := ["1", "true", "yes", "on"].map Text.ofString

def yes (env : Variables) (name : String) : Bool :=
  match lookup? env name with
  | none => false
  | some t => yesWords.contains (Text.lowerAscii (Text.strip t))

def names : List String :=
  ["GRID_BANKROLL", "GRID_GROSS_BALANCE", "GRID_MAX_PER_OPTION", "GRID_MIN_BET", "GRID_TICK_SIZE",
    "GRID_UNIT_VALUE_RATIO", "GRID_DEADLINE_THRESHOLD", "GRID_SOLVER_MAX_ITERATIONS",
    "GRID_POOL_REFINEMENT_PASSES", "GRID_POOL_SKIM_BPS", "GRID_REWARD_PER_ROUND", "GRID_FLAT_FEE",
    "GRID_FEE_BPS", "GRID_PROTOCOL_FEE", "GRID_LOG_LEVEL", "GRID_VERBOSE_SOLVER"]

-- The variables are read in this order, and the first one that is no number is reported.
def read? (env : Variables) : Except Text.NumeralError Settings := do
  let d : Settings := {}
  let bankroll ← number? env "GRID_BANKROLL" d.bankroll
  let gross ← optional? env "GRID_GROSS_BALANCE"
  let cap ← number? env "GRID_MAX_PER_OPTION" d.cap
  let minBet ← number? env "GRID_MIN_BET" d.minBet
  let tick ← number? env "GRID_TICK_SIZE" d.tick
  let unitValue ← number? env "GRID_UNIT_VALUE_RATIO" d.unitValue
  let threshold ← number? env "GRID_DEADLINE_THRESHOLD" d.threshold
  let iterations ← number? env "GRID_SOLVER_MAX_ITERATIONS" d.iterations
  let passes ← number? env "GRID_POOL_REFINEMENT_PASSES" d.passes
  let skim ← number? env "GRID_POOL_SKIM_BPS" d.skim
  let reward ← number? env "GRID_REWARD_PER_ROUND" d.reward
  let flat ← number? env "GRID_FLAT_FEE" d.fees.flat
  let bps ← number? env "GRID_FEE_BPS" d.fees.bps
  let fixed ← number? env "GRID_PROTOCOL_FEE" d.fees.fixed
  return {
    logLevel := (lookup? env "GRID_LOG_LEVEL").getD d.logLevel
    verbose := yes env "GRID_VERBOSE_SOLVER"
    bankroll, gross, cap, minBet, tick, unitValue, threshold, iterations, passes, skim, reward
    fees := ⟨flat, bps, fixed⟩ }

def bankroll? (s : Settings) : Except Fault Int :=
  match s.gross with
  | none => .ok s.bankroll
  | some gross => s.fees.net? gross

def strategy? (s : Settings) : Except Fault Strategy := do
  return {
    bankroll := ← s.bankroll?
    cap := s.cap
    minBet := s.minBet
    tick := s.tick
    unitValue := s.unitValue
    threshold := s.threshold
    iterations := s.iterations
    passes := s.passes }

-- A bankroll from elsewhere stands above both the set one and the gross balance.
def withBankroll (s : Settings) (bankroll : Int) : Settings :=
  { s with bankroll, gross := none }

end Settings
end Parimutuel
