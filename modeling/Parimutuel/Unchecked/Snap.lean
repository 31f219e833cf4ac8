import Parimutuel.Json.Writer
import Parimutuel.Snap
import Parimutuel.Unchecked.Appraisal

namespace Parimutuel

structure Snapping where
  stakes : Entries
  appraisal : Appraisal
  rejected : List (Json × Rejection)
  deriving Repr

namespace Snapping

def trim? (d : Draft) : Entries → Except Failure (Entries × List (Json × Rejection))
  | [] => .ok ([], [])
  | (key, amount) :: rest => do
    let stake ← Json.multiply? (← Json.floorDivide? amount d.tick) d.tick
    if ← Json.relate? .less stake d.minBet then
      let staked ← Json.relate? .greater amount (.int 0)
      let (kept, short) ← trim? d rest
      return (kept, if staked then (key, .belowMinBet) :: short else short)
    else
      let cut ← Json.smaller? stake d.cap
      let (kept, short) ← trim? d rest
      return ((key, cut) :: kept, short)

def sieve? (priced : Appraisal) : Entries → Except Failure (Entries × List Json)
  | [] => .ok ([], [])
  | (key, stake) :: rest => do
    let lost ← Json.relate? .atMost (← priced.value? key stake) (.int 0)
    let (kept, losers) ← sieve? priced rest
    return if lost then (kept, key :: losers) else ((key, stake) :: kept, losers)

theorem sieve?_length {priced : Appraisal} {e kept : Entries} {losers : List Json}
    (run : sieve? priced e = .ok (kept, losers)) : kept.length + losers.length = e.length := by
  induction e generalizing kept losers with
  | nil => cases run; rfl
  | cons p rest ih =>
    obtain ⟨value, _, run⟩ := bind_ok run
    obtain ⟨lost, _, run⟩ := bind_ok run
    obtain ⟨⟨others, more⟩, sieved, run⟩ := bind_ok run
    have lengths := ih sieved
    cases lost <;> cases run <;> simp only [List.length_cons] <;> omega

def eliminate? (base : Appraisal) (stakes : Entries) (rejected : List (Json × Rejection)) :
    Except Failure Snapping :=
  match base.withPool? (.entries stakes) with
  | .error failure => .error failure
  | .ok priced =>
    match sieved : sieve? priced stakes with
    | .error failure => .error failure
    | .ok (kept, losers) =>
      if losers.isEmpty then .ok ⟨stakes, priced, rejected⟩
      else eliminate? base kept (rejected ++ losers.map fun key => (key, .notPaying))
termination_by stakes.length
decreasing_by
  have lengths := sieve?_length sieved
  cases losers with
  | nil => simp_all
  | cons key others => simp only [List.length_cons] at lengths; omega

def of? (base : Appraisal) (e : Entries) (d : Draft) : Except Failure Snapping := do
  let (kept, short) ← trim? d (← e.sorted?)
  eliminate? base kept short

def values? (s : Snapping) : Except Failure Entries :=
  s.stakes.mapM fun p => do return (p.1, ← s.appraisal.value? p.1 p.2)

def words (s : Snapping) : Entries := s.rejected.map fun p => (p.1, .ofString p.2.word)

end Snapping
end Parimutuel
