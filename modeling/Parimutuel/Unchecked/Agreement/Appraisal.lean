import Parimutuel.Unchecked.Appraisal

namespace Parimutuel

-- A priced model as an appraisal that says exactly this.
def Model.appraisal (m : Model) : Appraisal where
  observation := m.board.observed
  draft := m.strategy.drafted
  holdings := m.holdings
  reward := .int m.reward
  prizes := m.prizes.map .int
  crosses := m.crosses.map .int

namespace Appraisal

theorem skimmed?_int (keep amount : Int) :
    skimmed? (.int keep) (.int amount) = .ok (.int (keep * amount / bpsScale)) := by
  simp only [skimmed?, Json.multiply?_int, bind, Except.bind, Json.floorDivide?_int,
    divide?_pos (show (0 : Int) < bpsScale by decide), Json.ofInt?_ok]

theorem share?_int (board : Board) (holdings : Holdings) (i : Int) :
    share? (board.stakes.map .int) holdings i = Json.ofInt? (Model.share? board holdings i) := by
  simp only [share?, Model.share?, bind, Except.bind]
  cases read? holdings i with
  | error fault => rfl
  | ok own =>
    simp only [mapError_ok]
    split
    · rw [Json.at?_int]
      cases read? board.stakes i with
      | error fault => rfl
      | ok taken => rfl
    · rfl

theorem prize?_int (board : Board) (strategy : Strategy) (holdings : Holdings) (i : Int) :
    prize? (board.stakes.map .int) holdings (.int board.keep) (.int board.total)
        (.int (rewardValue board.reward strategy.unitValue)) i =
      Json.ofInt? (Model.prize? board strategy holdings i) := by
  simp only [prize?, Model.prize?, bind, Except.bind, Json.at?_int]
  cases read? board.stakes i with
  | error fault => rfl
  | ok taken =>
    cases read? holdings i with
    | error fault => rfl
    | ok own =>
      simp only [Json.ofInt?_ok, Json.subtract?_int, Json.add?_int, mapError_ok, skimmed?_int]
      rfl

theorem flat?_appraisal (m : Model) (i : Int) :
    m.appraisal.flat? (.int i) = (m.flat? i).mapError .fault := by
  have taken : m.appraisal.taken? (.int i) = Json.ofInt? (m.taken? i) := Json.at?_int m.board.stakes i
  simp only [flat?, Model.flat?, taken, bind, Except.bind]
  cases m.taken? i <;> rfl

theorem mapM_lifted {α β γ : Type} {f : α → Except Failure γ} {g : α → Except Fault β} (h : β → γ)
    (row : List α) (each : ∀ x, f x = ((g x).map h).mapError .fault) :
    row.mapM f = ((row.mapM g).map fun ys => ys.map h).mapError .fault := by
  induction row with
  | nil => rfl
  | cons x rest ih =>
    rw [List.mapM_cons, List.mapM_cons, each x, ih]
    cases g x with
    | error fault => rfl
    | ok y => cases rest.mapM g <;> rfl

theorem productOver?_int (a b d : Int) (h : 0 < d) :
    Json.productOver? (.int a) (.int b) d = .ok (.int (a * b / d)) := by
  simp only [Json.productOver?, Json.isRow, Bool.false_eq_true, if_false, Json.multiply?_int, bind,
    Except.bind, Json.floorDivide?_int, divide?_pos h, Json.ofInt?_ok]

theorem of?_observed (board : Board) (strategy : Strategy) (holdings : Holdings) :
    of? board.observed strategy.drafted holdings =
      ((Model.price? board strategy holdings).map Model.appraisal).mapError .fault := by
  have keep : Json.subtract? (.int bpsScale) board.observed.skim = .ok (.int board.keep) := rfl
  have reward : Json.productOver? board.observed.reward strategy.drafted.unitValue rewardScale =
      .ok (.int (rewardValue board.reward strategy.unitValue)) :=
    productOver?_int _ _ _ (by decide)
  have total : Json.sum? board.observed.stakes = .ok (.int board.total) := Json.sum?_int board.stakes
  have shares := mapM_lifted Json.int options (share?_int board holdings)
  have prizes := mapM_lifted Json.int options (prize?_int board strategy holdings)
  have stakes : board.observed.stakes = board.stakes.map .int := rfl
  simp only [of?, Model.price?, keep, reward, total, bind, Except.bind]
  rw [stakes, shares]
  cases options.mapM (Model.share? board holdings) with
  | error fault => rfl
  | ok parts =>
    have crosses : (parts.map Json.int).mapM (fun share => do
        skimmed? (.int board.keep) (← Json.subtract? (.int (sumOf parts)) share)) =
        .ok ((parts.map fun share => board.keep * (sumOf parts - share) / bpsScale).map .int) := by
      rw [List.mapM_map, mapM_lifted (g := fun share =>
        .ok (board.keep * (sumOf parts - share) / bpsScale)) Json.int parts fun share => by
          simp only [Function.comp, Json.subtract?_int, bind, Except.bind, skimmed?_int]
          rfl,
        mapM_ok parts fun _ _ => rfl]
      rfl
    simp only [Except.map, mapError_ok, Json.sum?_int]
    rw [prizes]
    cases options.mapM (Model.prize? board strategy holdings) with
    | error fault => rfl
    | ok row =>
      simp only [Except.map, mapError_ok]
      simp only [bind, Except.bind] at crosses
      rw [crosses]
      rfl

theorem taken?_appraisal (m : Model) (i : Int) :
    m.appraisal.taken? (.int i) = Json.ofInt? (m.taken? i) := Json.at?_int m.board.stakes i

theorem prizeOf?_appraisal (m : Model) (i : Int) :
    m.appraisal.prizeOf? (.int i) = Json.ofInt? (read? m.prizes i) := Json.at?_int m.prizes i

theorem crossOf?_appraisal (m : Model) (i : Int) :
    m.appraisal.crossOf? (.int i) = Json.ofInt? (read? m.crosses i) := Json.at?_int m.crosses i

theorem read?_together {left right : List Int} (lengths : left.length = right.length) {i n : Int}
    (run : read? left i = .ok n) : ∃ k, read? right i = .ok k := by
  unfold read? at run ⊢
  rw [lengths] at run
  split at run
  · cases run
  · exact ⟨_, rfl⟩

theorem value?_appraisal (m : Model) (lengths : m.prizes.length = m.crosses.length) (i stake : Int) :
    m.appraisal.value? (.int i) (.int stake) = Json.ofInt? (m.value? i stake) := by
  simp only [value?, Model.value?, Json.relate?_int, Relation.ofInts, bind, Except.bind,
    decide_eq_true_eq]
  split
  · rfl
  · rename_i positive
    rw [taken?_appraisal, prizeOf?_appraisal, crossOf?_appraisal]
    simp only [Model.quote?, bind, Except.bind]
    cases m.taken? i with
    | error fault => rfl
    | ok taken =>
      cases priced : read? m.prizes i with
      | error fault => rfl
      | ok prize =>
        obtain ⟨cross, crossed⟩ := read?_together lengths priced
        simp only [crossed, Json.ofInt?_ok, Json.multiply?_int, Json.add?_int, Json.floorDivide?_int,
          pure, Except.pure, Quote.value?, if_neg positive]
        by_cases cancelled : taken + stake = 0
        · simp [divide?, cancelled, Json.ofInt?, Except.map, mapError_error]
        · rw [divide?_ok cancelled, if_neg cancelled]
          simp only [Json.ofInt?_ok, Json.add?_int, Json.floorDivide?_int,
            divide?_pos (show (0 : Int) < optionCount * wad by decide), Json.subtract?_int]
          rfl

theorem read?_together_error {left right : List Int} (lengths : left.length = right.length) {i : Int}
    {fault : Fault} (run : read? left i = .error fault) : read? right i = .error fault := by
  unfold read? at run ⊢
  rw [lengths] at run
  split at run
  · exact run
  · cases run

theorem marginal?_appraisal (m : Model) (lengths : m.prizes.length = m.crosses.length)
    (i stake : Int) :
    m.appraisal.marginal? (.int i) (.int stake) = Json.ofInt? (m.marginal? i stake) := by
  simp only [marginal?, Model.marginal?, Model.quote?, Json.larger?_int, bind, Except.bind]
  rw [taken?_appraisal, crossOf?_appraisal]
  cases m.taken? i with
  | error fault => rfl
  | ok taken =>
    simp only [Json.ofInt?_ok, slope?, Json.relate?_int, Relation.ofInts, bind, Except.bind,
      decide_eq_true_eq, pure, Except.pure]
    rw [prizeOf?_appraisal]
    cases priced : read? m.prizes i with
    | error fault =>
      rw [read?_together_error lengths priced]
      by_cases staked : taken > 0
      · rw [if_pos staked]
        rfl
      · rw [if_neg staked]
        rfl
    | ok prize =>
      obtain ⟨cross, crossed⟩ := read?_together lengths priced
      simp only [crossed, Json.ofInt?_ok, Json.multiply?_int, Json.add?_int, Json.floorDivide?_int,
        Json.square?_int, Quote.marginal, Quote.slope]
      by_cases staked : taken > 0
      · have square : (taken + max 0 stake) * (taken + max 0 stake) ≠ 0 :=
          Int.mul_ne_zero (by omega) (by omega)
        simp only [if_pos staked, divide?_ok square, Json.ofInt?_ok, Json.add?_int,
          Json.floorDivide?_int, divide?_pos (show (0 : Int) < optionCount by decide),
          Json.subtract?_int]
      · simp only [if_neg staked, Json.add?_int, Json.floorDivide?_int,
          divide?_pos (show (0 : Int) < optionCount by decide), Json.ofInt?_ok, Json.subtract?_int]

theorem root?_int (n : Int) :
    Json.root? (.int n) =
      if n < 0 then .error (.fault .negativeRoot) else .ok (.int (floorRoot n.toNat)) := rfl

theorem hurdle?_int (a : Appraisal) (i price cross : Int)
    (crossed : a.crossOf? (.int i) = .ok (.int cross)) (q : Quote) (same : q.cross = cross) :
    a.hurdle? (.int i) (.int price) = .ok (.int (q.clampedHurdle price)) := by
  simp only [hurdle?, Json.larger?_int, Json.add?_int, Json.multiply?_int, Json.subtract?_int,
    crossed, Json.relate?_int, Relation.ofInts, bind, Except.bind, pure, Except.pure,
    decide_eq_true_eq, Quote.clampedHurdle, Quote.hurdle, same]
  generalize (optionCount : Int) * (max 0 price + wad) - wad - cross = due
  split
  · rw [Int.max_eq_left (by omega)]
  · rw [Int.max_eq_right (by omega)]

theorem optimum?_appraisal (m : Model) (lengths : m.prizes.length = m.crosses.length)
    (i price : Int) :
    m.appraisal.optimum? (.int i) (.int price) = Json.ofInt? (m.optimum? i price) := by
  simp only [optimum?, Model.optimum?, Model.quote?, bind, Except.bind]
  rw [taken?_appraisal, prizeOf?_appraisal]
  cases m.taken? i with
  | error fault => rfl
  | ok taken =>
    cases priced : read? m.prizes i with
    | error fault => rfl
    | ok prize =>
      obtain ⟨cross, crossed⟩ := read?_together lengths priced
      have read : m.appraisal.crossOf? (.int i) = .ok (.int cross) := by
        rw [crossOf?_appraisal, crossed]
        rfl
      have hurdle := hurdle?_int m.appraisal i price cross read ⟨taken, prize, cross⟩ rfl
      have positive : 0 < (Quote.mk taken prize cross).clampedHurdle price := by
        unfold Quote.clampedHurdle
        omega
      have square : (taken * prize * wad).fdiv ((Quote.mk taken prize cross).clampedHurdle price) =
          (Quote.mk taken prize cross).peakSquare price := rfl
      simp only [crossed, Json.ofInt?_ok, Json.isZero_int, hurdle, Json.multiply?_int,
        Json.floorDivide?_int, divide?_ok (Int.ne_of_gt positive), square, root?_int, pure,
        Except.pure, Quote.optimum?, Bool.or_eq_true, beq_iff_eq]
      split
      · rfl
      · by_cases negative : (Quote.mk taken prize cross).peakSquare price < 0
        · rw [if_pos negative, if_pos negative]
          rfl
        · rw [if_neg negative, if_neg negative]
          simp only [Json.subtract?_int, Json.larger?_int, Json.ofInt?_ok]

end Appraisal
end Parimutuel
