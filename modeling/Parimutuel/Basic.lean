namespace Parimutuel

-- A round has this many options, and exactly one of them wins.
def optionCount : Nat := 25

def bpsScale : Int := 10000

-- Fixed-point one for shares and marginal values.
def wad : Int := 1000000000000000000

-- Atomic reward units in one whole reward token.
def rewardScale : Int := 100000000000

-- The skim of the losers' pool when nobody states another one.
def defaultSkim : Int := 1090

def options : List Int := (List.range optionCount).map Int.ofNat

theorem options_length : options.length = optionCount := rfl

theorem mem_options (i : Int) : i ∈ options ↔ 0 ≤ i ∧ i < optionCount := by
  simp only [options, List.mem_map, List.mem_range]
  constructor
  · rintro ⟨k, small, rfl⟩
    simp only [Int.ofNat_eq_natCast]
    omega
  · intro range
    exact ⟨i.toNat, by omega, by simp only [Int.ofNat_eq_natCast]; omega⟩

def sumOf : List Int → Int
  | [] => 0
  | x :: rest => x + sumOf rest

theorem sumOf_nonneg {row : List Int} (nonneg : ∀ x ∈ row, 0 ≤ x) : 0 ≤ sumOf row := by
  induction row with
  | nil => exact Int.le_refl 0
  | cons x rest ih =>
    have first := nonneg x List.mem_cons_self
    have others := ih fun y member => nonneg y (List.mem_cons_of_mem x member)
    unfold sumOf
    omega

theorem getD_le_sumOf {row : List Int} (nonneg : ∀ x ∈ row, 0 ≤ x) (k : Nat) :
    row.getD k 0 ≤ sumOf row := by
  induction row generalizing k with
  | nil => exact Int.le_refl 0
  | cons x rest ih =>
    have first := nonneg x List.mem_cons_self
    have restNonneg : ∀ y ∈ rest, 0 ≤ y := fun y member => nonneg y (List.mem_cons_of_mem x member)
    unfold sumOf
    cases k with
    | zero =>
      have := sumOf_nonneg restNonneg
      rw [List.getD_cons_zero]
      omega
    | succ k =>
      have := ih restNonneg k
      rw [List.getD_cons_succ]
      omega

-- What is known of a round. `stakes` and `bettors` are promised to have one entry for each
-- option only by `Valid`.
structure Board where
  stakes : List Int
  bettors : List Int
  skim : Int
  remaining : Int
  isOpen : Bool
  reward : Int
  deriving Repr, DecidableEq

structure Board.Valid (b : Board) : Prop where
  stakes_length : b.stakes.length = optionCount
  bettors_length : b.bettors.length = optionCount
  stakes_nonneg : ∀ t ∈ b.stakes, 0 ≤ t
  bettors_nonneg : ∀ n ∈ b.bettors, 0 ≤ n
  skim_nonneg : 0 ≤ b.skim
  skim_le : b.skim ≤ bpsScale
  remaining_nonneg : 0 ≤ b.remaining
  reward_nonneg : 0 ≤ b.reward

def Board.total (b : Board) : Int := sumOf b.stakes

-- What the losers' pool pays on, in basis points.
def Board.keep (b : Board) : Int := bpsScale - b.skim

-- How one bettor wants to play. `iterations` is the budget of one search for the shadow price,
-- `passes` the number of times stakes may be priced again against their own effect.
structure Strategy where
  bankroll : Int
  cap : Int
  minBet : Int
  tick : Int := 1
  unitValue : Int := 0
  threshold : Int := 2
  iterations : Int := 60
  passes : Int := 2
  deriving Repr, DecidableEq

structure Strategy.Valid (s : Strategy) : Prop where
  bankroll_nonneg : 0 ≤ s.bankroll
  unitValue_nonneg : 0 ≤ s.unitValue
  threshold_nonneg : 0 ≤ s.threshold
  passes_nonneg : 0 ≤ s.passes
  tick_pos : 0 < s.tick
  minBet_pos : 0 < s.minBet
  cap_pos : 0 < s.cap
  iterations_pos : 0 < s.iterations
  minBet_tick : s.tick ∣ s.minBet
  cap_tick : s.tick ∣ s.cap
  minBet_le : s.minBet ≤ s.cap

-- The secondary reward of a round in bankroll units, rounded down.
def rewardValue (reward unitValue : Int) : Int := reward * unitValue / rewardScale

theorem bind_ok {ε α β : Type} {x : Except ε α} {f : α → Except ε β} {b : β}
    (run : (x >>= f) = .ok b) : ∃ a, x = .ok a ∧ f a = .ok b := by
  cases x with
  | error e => cases run
  | ok a => exact ⟨a, rfl, run⟩

end Parimutuel
