import Parimutuel.Pricing.Model

namespace Parimutuel

inductive Rejection where
  | belowMinBet
  | notPaying
  deriving Repr, DecidableEq

def Rejection.word : Rejection → String
  | .belowMinBet => "below_min_bet"
  | .notPaying => "non_positive_ev"

-- The bets that remain, the model priced against exactly these, and what was dropped, in the
-- order in which it was.
structure Snapped where
  stakes : Stakes
  model : Model
  rejected : List (Int × Rejection)
  deriving Repr, DecidableEq

namespace Snap

-- Stakes on ticks and within the limits, and the options whose stake was too small. Nothing was
-- dropped where nothing was staked.
def trim? (s : Strategy) : Stakes → Except Fault (Stakes × List (Int × Rejection))
  | [] => .ok ([], [])
  | (i, amount) :: rest => do
    let stake := (← divide? amount s.tick) * s.tick
    let (kept, short) ← trim? s rest
    return if stake < s.minBet then
        (kept, if 0 < amount then (i, .belowMinBet) :: short else short)
      else ((i, min stake s.cap) :: kept, short)

def sieve? (priced : Model) : Stakes → Except Fault (Stakes × List Int)
  | [] => .ok ([], [])
  | (i, stake) :: rest => do
    let value ← priced.value? i stake
    let (kept, losers) ← sieve? priced rest
    return if value ≤ 0 then (kept, i :: losers) else ((i, stake) :: kept, losers)

theorem sieve?_length {priced : Model} {s kept : Stakes} {losers : List Int}
    (run : sieve? priced s = .ok (kept, losers)) : kept.length + losers.length = s.length := by
  induction s generalizing kept losers with
  | nil => cases run; rfl
  | cons p rest ih =>
    obtain ⟨i, stake⟩ := p
    unfold sieve? at run
    cases valued : priced.value? i stake with
    | error fault => simp [valued, bind, Except.bind] at run
    | ok value =>
      cases others : sieve? priced rest with
      | error fault => simp [valued, others, bind, Except.bind] at run
      | ok pair =>
        obtain ⟨keptRest, losersRest⟩ := pair
        have lengths := ih others
        simp only [valued, others, bind, Except.bind, pure, Except.pure, Except.ok.injEq] at run
        split at run <;> cases run <;> simp only [List.length_cons] <;> omega

-- One pricing for all, then one drop for all that do not pay, until none is dropped.
def eliminate? (base : Model) (stakes : Stakes) (rejected : List (Int × Rejection)) :
    Except Fault Snapped :=
  match base.withStakes? stakes with
  | .error fault => .error fault
  | .ok priced =>
    match sieved : sieve? priced stakes with
    | .error fault => .error fault
    | .ok (kept, losers) =>
      if losers = [] then .ok ⟨stakes, priced, rejected⟩
      else eliminate? base kept (rejected ++ losers.map fun i => (i, .notPaying))
termination_by stakes.length
decreasing_by
  have lengths := sieve?_length sieved
  have := List.length_pos_iff.2 (by assumption : ¬ losers = [])
  omega

def snap? (base : Model) (stakes : Stakes) (s : Strategy) : Except Fault Snapped := do
  let (kept, short) ← trim? s stakes.sorted
  eliminate? base kept short

end Snap
end Parimutuel
