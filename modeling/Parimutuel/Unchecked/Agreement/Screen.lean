import Parimutuel.Screen
import Parimutuel.Unchecked.Agreement.Appraisal
import Parimutuel.Unchecked.Screen

namespace Parimutuel.Appraisal

theorem promising?_appraisal (m : Model) (lengths : m.prizes.length = m.crosses.length) (i : Int) :
    m.appraisal.promising? i = (Screen.promising? m m.strategy.minBet i).mapError .fault := by
  have minBet : m.appraisal.draft.minBet = .int m.strategy.minBet := rfl
  simp only [promising?, Screen.promising?, flat?_appraisal, minBet, value?_appraisal m lengths,
    marginal?_appraisal m lengths, bind, Except.bind]
  cases m.flat? i with
  | error fault => rfl
  | ok flat =>
    cases flat with
    | true =>
      simp only [mapError_ok, if_true]
      cases m.value? i m.strategy.minBet <;> rfl
    | false =>
      simp only [mapError_ok, Bool.false_eq_true, if_false]
      cases m.marginal? i 0 <;> rfl

theorem keepWhere?_mapError {test : Int → Except Failure Bool} {known : Int → Except Fault Bool}
    (row : List Int) (h : ∀ i, test i = (known i).mapError .fault) :
    keepWhere? test row = (keepWhere? known row).mapError .fault := by
  induction row with
  | nil => rfl
  | cons i rest ih =>
    simp only [keepWhere?, h i, ih, bind, Except.bind]
    cases known i with
    | error fault => rfl
    | ok passes => cases keepWhere? known rest <;> rfl

theorem kept?_observed (board : Board) (strategy : Strategy) :
    kept? board.observed strategy.drafted = (Screen.kept? board strategy).mapError .fault := by
  simp only [kept?, bare?, Screen.kept?, Model.bare?, of?_observed, bind, Except.bind]
  cases priced : Model.price? board strategy Holdings.none with
  | error fault => rfl
  | ok m =>
    obtain ⟨prizes, crosses⟩ := Model.price?_lengths priced
    have same : m.strategy = strategy := by
      obtain ⟨shares, _, rest⟩ := bind_ok priced
      obtain ⟨row, _, rest⟩ := bind_ok rest
      cases rest
      rfl
    have each := keepWhere?_mapError options (promising?_appraisal m (prizes.trans crosses.symm))
    rw [same] at each
    exact each

end Parimutuel.Appraisal
