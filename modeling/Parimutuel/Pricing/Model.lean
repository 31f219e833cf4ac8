import Parimutuel.Pricing.Holdings
import Parimutuel.Pricing.Quote

namespace Parimutuel

structure Model where
  board : Board
  strategy : Strategy
  holdings : Holdings
  prizes : List Int
  crosses : List Int
  deriving Repr, DecidableEq

namespace Model

def share? (board : Board) (holdings : Holdings) (i : Int) : Except Fault Int := do
  let own ← read? holdings i
  if own > 0 then
    let taken ← read? board.stakes i
    divide? (own * wad) (taken + own)
  else
    return 0

-- Others' and own stakes on all other options, less the skim, and the reward on top.
def prize? (board : Board) (strategy : Strategy) (holdings : Holdings) (i : Int) :
    Except Fault Int := do
  let taken ← read? board.stakes i
  let own ← read? holdings i
  return board.keep * (board.total - taken + holdings.total - own) / bpsScale
    + rewardValue board.reward strategy.unitValue

def price? (board : Board) (strategy : Strategy) (holdings : Holdings) : Except Fault Model := do
  let shares ← options.mapM (share? board holdings)
  let prizes ← options.mapM (prize? board strategy holdings)
  let crosses := shares.map fun share => board.keep * (sumOf shares - share) / bpsScale
  return { board, strategy, holdings, prizes, crosses }

theorem price?_lengths {board : Board} {strategy : Strategy} {holdings : Holdings} {m : Model}
    (run : price? board strategy holdings = .ok m) :
    m.prizes.length = optionCount ∧ m.crosses.length = optionCount := by
  unfold price? at run
  cases shared : options.mapM (share? board holdings) with
  | error fault => simp [shared, bind, Except.bind] at run
  | ok shares =>
    cases priced : options.mapM (prize? board strategy holdings) with
    | error fault => simp [shared, priced, bind, Except.bind] at run
    | ok prizes =>
      simp only [shared, priced, bind, Except.bind, pure, Except.pure, Except.ok.injEq] at run
      subst run
      have sharesLength := mapM_length options shares shared
      have prizesLength := mapM_length options prizes priced
      rw [options_length] at sharesLength prizesLength
      exact ⟨prizesLength, by simpa using sharesLength⟩

def bare? (board : Board) (strategy : Strategy) : Except Fault Model :=
  price? board strategy .none

def reprice? (m : Model) (holdings : Holdings) : Except Fault Model :=
  price? m.board m.strategy holdings

def withStakes? (m : Model) (s : Stakes) : Except Fault Model := do
  m.reprice? (← Holdings.ofStakes? s)

def reward (m : Model) : Int := rewardValue m.board.reward m.strategy.unitValue

def taken? (m : Model) (i : Int) : Except Fault Int := read? m.board.stakes i

def quote? (m : Model) (i : Int) : Except Fault Quote := do
  return ⟨← m.taken? i, ← read? m.prizes i, ← read? m.crosses i⟩

-- A stake that is not positive is worth nothing, whatever the option's number.
def value? (m : Model) (i stake : Int) : Except Fault Int :=
  if stake ≤ 0 then .ok 0 else do (← m.quote? i).value? stake

def marginal? (m : Model) (i stake : Int) : Except Fault Int := do
  return (← m.quote? i).marginal stake

def optimum? (m : Model) (i price : Int) : Except Fault Int := do
  (← m.quote? i).optimum? price

-- Nobody else has staked the option: any stake owns all of it, and the smallest one is the best.
def flat? (m : Model) (i : Int) : Except Fault Bool := do
  return (← m.taken? i) == 0

end Model
end Parimutuel
