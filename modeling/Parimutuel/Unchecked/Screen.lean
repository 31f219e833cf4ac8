import Parimutuel.Unchecked.Appraisal

namespace Parimutuel.Appraisal

def promising? (a : Appraisal) (i : Int) : Except Failure Bool := do
  if ← a.flat? (.int i) then Json.relate? .greater (← a.value? (.int i) a.draft.minBet) (.int 0)
  else Json.relate? .greater (← a.marginal? (.int i) (.int 0)) (.int 0)

def kept? (o : Observation) (d : Draft) : Except Failure (List Int) := do
  let a ← bare? o d
  keepWhere? a.promising? options

end Parimutuel.Appraisal
