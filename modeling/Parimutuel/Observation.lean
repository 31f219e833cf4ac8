import Parimutuel.Basic
import Parimutuel.Failure

namespace Parimutuel

-- What an observation or a strategy is refused for. The last five come up only while a feed is
-- read.
inductive Refusal where
  | notInteger (field : String) (value : Json)
  | negative (field : String) (n : Int)
  | wrongCount (field : String) (size : Nat)
  | skimTooHigh (n : Int)
  | openNotBool (value : Json)
  | notPositive (field : String)
  | offTick (field : String) (n tick : Int)
  | minAboveCap (minBet cap : Int)
  | noStakes
  | noRemaining
  | notSequence (field : String)
  | notBoolean (field : String) (value : Json)
  | notObject (kind : String)
  deriving Repr

namespace Refusal

-- The words of a refusal, which show the values it is about.
def message? (room : Nat) : Refusal → Except Json.Unsayable String
  | .notInteger field value => do return field ++ " must be an integer: " ++ (← value.describe? room)
  | .negative field n => do return field ++ " must be non-negative: " ++ (← Json.decimal? n)
  | .wrongCount field size =>
    .ok (field ++ " must have " ++ toString optionCount ++ " entries, got " ++ toString size)
  | .skimTooHigh n => do
    return "pool_skim_bps out of range [0, " ++ toString bpsScale ++ "]: " ++ (← Json.decimal? n)
  | .openNotBool value => do return "round_open must be a bool: " ++ (← value.describe? room)
  | .notPositive field => .ok (field ++ " must be positive")
  | .offTick field n tick => do
    return field ++ " " ++ (← Json.decimal? n) ++ " is not a multiple of tick_size "
      ++ (← Json.decimal? tick)
  | .minAboveCap minBet cap => do
    return "min_bet " ++ (← Json.decimal? minBet) ++ " exceeds max_per_option " ++ (← Json.decimal? cap)
  | .noStakes => .ok "snapshot payload has no existing_stake/deployed array"
  | .noRemaining => .ok "snapshot payload has no remaining_time_units/slots_left"
  | .notSequence field => .ok (field ++ " must be a sequence of integers")
  | .notBoolean field value => do return field ++ " must be a boolean: " ++ (← value.describe? room)
  | .notObject kind => .ok ("snapshot file must hold a JSON object, got " ++ kind)

-- The words come first, so that without them there is no refusal.
def raised (room : Nat) (refusal : Refusal) : Failure :=
  match refusal.message? room with
  | .ok message => .refused message
  | .error why => .unsayable why

end Refusal

def entryName (field : String) (i : Nat) : String := field ++ "[" ++ Nat.repr i ++ "]"

def require? (room : Nat) (condition : Prop) [Decidable condition] (refusal : Refusal) :
    Except Failure Unit :=
  if condition then .ok () else .error (refusal.raised room)

-- A truth value is no integer, and neither is a fraction that happens to be whole.
def natural? (room : Nat) (field : String) : Json → Except Failure Int
  | .int n => if n < 0 then .error ((Refusal.negative field n).raised room) else .ok n
  | value => .error ((Refusal.notInteger field value).raised room)

def positive? (room : Nat) (field : String) (value : Json) : Except Failure Int := do
  let n ← natural? room field value
  require? room (n ≠ 0) (.notPositive field)
  return n

def flag? (room : Nat) : Json → Except Failure Bool
  | .bool b => .ok b
  | value => .error ((Refusal.openNotBool value).raised room)

def naturals? (room : Nat) (field : String) (i : Nat) : List Json → Except Failure (List Int)
  | [] => .ok []
  | value :: rest => do
    let n ← natural? room (entryName field i) value
    return n :: (← naturals? room field (i + 1) rest)

structure Observation where
  stakes : List Json
  bettors : List Json
  skim : Json := .int defaultSkim
  remaining : Json := .int 0
  isOpen : Json := .bool true
  reward : Json := .int 0
  deriving Repr

-- Both rows are counted before any entry is looked at.
def Observation.check? (room : Nat) (o : Observation) : Except Failure Board := do
  require? room (o.stakes.length = optionCount) (.wrongCount "existing_stake" o.stakes.length)
  require? room (o.bettors.length = optionCount) (.wrongCount "existing_bettors" o.bettors.length)
  let stakes ← naturals? room "existing_stake" 0 o.stakes
  let bettors ← naturals? room "existing_bettors" 0 o.bettors
  let skim ← natural? room "pool_skim_bps" o.skim
  require? room (skim ≤ bpsScale) (.skimTooHigh skim)
  let remaining ← natural? room "remaining_time_units" o.remaining
  let reward ← natural? room "reward_per_round" o.reward
  let isOpen ← flag? room o.isOpen
  return { stakes, bettors, skim, remaining, isOpen, reward }

-- A board as an observation that says exactly this.
def Board.observed (b : Board) : Observation where
  stakes := b.stakes.map .int
  bettors := b.bettors.map .int
  skim := .int b.skim
  remaining := .int b.remaining
  isOpen := .bool b.isOpen
  reward := .int b.reward

structure Draft where
  bankroll : Json
  cap : Json
  minBet : Json
  tick : Json := .int 1
  unitValue : Json := .int 0
  threshold : Json := .int 2
  iterations : Json := .int 60
  passes : Json := .int 2
  deriving Repr

def Draft.check? (room : Nat) (d : Draft) : Except Failure Strategy := do
  let bankroll ← natural? room "bankroll" d.bankroll
  let unitValue ← natural? room "unit_value_ratio" d.unitValue
  let threshold ← natural? room "deadline_threshold" d.threshold
  let passes ← natural? room "pool_refinement_passes" d.passes
  let tick ← positive? room "tick_size" d.tick
  let minBet ← positive? room "min_bet" d.minBet
  let cap ← positive? room "max_per_option" d.cap
  let iterations ← positive? room "solver_max_iterations" d.iterations
  require? room (minBet % tick = 0) (.offTick "min_bet" minBet tick)
  require? room (cap % tick = 0) (.offTick "max_per_option" cap tick)
  require? room (minBet ≤ cap) (.minAboveCap minBet cap)
  return { bankroll, cap, minBet, tick, unitValue, threshold, iterations, passes }

def Strategy.drafted (s : Strategy) : Draft where
  bankroll := .int s.bankroll
  cap := .int s.cap
  minBet := .int s.minBet
  tick := .int s.tick
  unitValue := .int s.unitValue
  threshold := .int s.threshold
  iterations := .int s.iterations
  passes := .int s.passes

theorem require?_ok {room : Nat} {condition : Prop} [Decidable condition] {refusal : Refusal} {u : Unit}
    (run : require? room condition refusal = .ok u) : condition := by
  by_cases h : condition
  · exact h
  · simp [require?, h] at run

theorem natural?_ok {room : Nat} {field : String} {value : Json} {n : Int}
    (run : natural? room field value = .ok n) : value = .int n ∧ 0 ≤ n := by
  cases value with
  | int k =>
    by_cases h : k < 0
    · simp [natural?, h] at run
    · simp only [natural?, h, if_false, Except.ok.injEq] at run
      subst run
      exact ⟨rfl, by omega⟩
  | _ => cases run

theorem positive?_ok {room : Nat} {field : String} {value : Json} {n : Int}
    (run : positive? room field value = .ok n) : value = .int n ∧ 0 < n := by
  obtain ⟨k, known, run⟩ := bind_ok run
  obtain ⟨_, nonzero, run⟩ := bind_ok run
  cases run
  obtain ⟨same, bound⟩ := natural?_ok known
  have := require?_ok nonzero
  exact ⟨same, by omega⟩

theorem flag?_ok {room : Nat} {value : Json} {b : Bool} (run : flag? room value = .ok b) :
    value = .bool b := by
  cases value with
  | bool c => cases run; rfl
  | _ => cases run

theorem naturals?_ok {room : Nat} {field : String} {i : Nat} {row : List Json} {ns : List Int}
    (run : naturals? room field i row = .ok ns) : row = ns.map .int ∧ ∀ n ∈ ns, 0 ≤ n := by
  induction row generalizing i ns with
  | nil => cases run; exact ⟨rfl, by simp⟩
  | cons value rest ih =>
    obtain ⟨n, first, run⟩ := bind_ok run
    obtain ⟨others, restRun, run⟩ := bind_ok run
    cases run
    obtain ⟨same, bound⟩ := natural?_ok first
    obtain ⟨sameRest, boundRest⟩ := ih restRun
    subst same sameRest
    exact ⟨rfl, by simp only [List.mem_cons, forall_eq_or_imp]; exact ⟨bound, boundRest⟩⟩

theorem Observation.check_valid {room : Nat} {o : Observation} {b : Board} (run : o.check? room = .ok b) :
    o = b.observed ∧ b.Valid := by
  obtain ⟨_, stakesCount, run⟩ := bind_ok run
  obtain ⟨_, bettorsCount, run⟩ := bind_ok run
  obtain ⟨stakes, stakesRun, run⟩ := bind_ok run
  obtain ⟨bettors, bettorsRun, run⟩ := bind_ok run
  obtain ⟨skim, skimRun, run⟩ := bind_ok run
  obtain ⟨_, skimBound, run⟩ := bind_ok run
  obtain ⟨remaining, remainingRun, run⟩ := bind_ok run
  obtain ⟨reward, rewardRun, run⟩ := bind_ok run
  obtain ⟨isOpen, openRun, run⟩ := bind_ok run
  cases run
  obtain ⟨stakesSame, stakesNonneg⟩ := naturals?_ok stakesRun
  obtain ⟨bettorsSame, bettorsNonneg⟩ := naturals?_ok bettorsRun
  obtain ⟨skimSame, skimNonneg⟩ := natural?_ok skimRun
  obtain ⟨remainingSame, remainingNonneg⟩ := natural?_ok remainingRun
  obtain ⟨rewardSame, rewardNonneg⟩ := natural?_ok rewardRun
  have stakesLength := require?_ok stakesCount
  have bettorsLength := require?_ok bettorsCount
  rw [stakesSame, List.length_map] at stakesLength
  rw [bettorsSame, List.length_map] at bettorsLength
  have openSame := flag?_ok openRun
  constructor
  · cases o
    simp only at stakesSame bettorsSame skimSame remainingSame rewardSame openSame
    subst stakesSame bettorsSame skimSame remainingSame rewardSame openSame
    rfl
  · exact ⟨stakesLength, bettorsLength, stakesNonneg, bettorsNonneg, skimNonneg,
      require?_ok skimBound, remainingNonneg, rewardNonneg⟩

theorem Draft.check_valid {room : Nat} {d : Draft} {s : Strategy} (run : d.check? room = .ok s) :
    d = s.drafted ∧ s.Valid := by
  obtain ⟨bankroll, bankrollRun, run⟩ := bind_ok run
  obtain ⟨unitValue, unitValueRun, run⟩ := bind_ok run
  obtain ⟨threshold, thresholdRun, run⟩ := bind_ok run
  obtain ⟨passes, passesRun, run⟩ := bind_ok run
  obtain ⟨tick, tickRun, run⟩ := bind_ok run
  obtain ⟨minBet, minBetRun, run⟩ := bind_ok run
  obtain ⟨cap, capRun, run⟩ := bind_ok run
  obtain ⟨iterations, iterationsRun, run⟩ := bind_ok run
  obtain ⟨_, minBetTick, run⟩ := bind_ok run
  obtain ⟨_, capTick, run⟩ := bind_ok run
  obtain ⟨_, ordered, run⟩ := bind_ok run
  cases run
  obtain ⟨bankrollSame, bankrollNonneg⟩ := natural?_ok bankrollRun
  obtain ⟨unitValueSame, unitValueNonneg⟩ := natural?_ok unitValueRun
  obtain ⟨thresholdSame, thresholdNonneg⟩ := natural?_ok thresholdRun
  obtain ⟨passesSame, passesNonneg⟩ := natural?_ok passesRun
  obtain ⟨tickSame, tickPos⟩ := positive?_ok tickRun
  obtain ⟨minBetSame, minBetPos⟩ := positive?_ok minBetRun
  obtain ⟨capSame, capPos⟩ := positive?_ok capRun
  obtain ⟨iterationsSame, iterationsPos⟩ := positive?_ok iterationsRun
  constructor
  · cases d
    simp only at bankrollSame unitValueSame thresholdSame passesSame
    simp only at tickSame minBetSame capSame iterationsSame
    subst bankrollSame unitValueSame thresholdSame passesSame
    subst tickSame minBetSame capSame iterationsSame
    rfl
  · exact ⟨bankrollNonneg, unitValueNonneg, thresholdNonneg, passesNonneg, tickPos, minBetPos,
      capPos, iterationsPos, Int.dvd_of_emod_eq_zero (require?_ok minBetTick),
      Int.dvd_of_emod_eq_zero (require?_ok capTick), require?_ok ordered⟩

end Parimutuel
