import Parimutuel.Pricing.Model

namespace Parimutuel.Model

-- What others and what the bettor have on an option, read without a check.
def takenAt (board : Board) (i : Int) : Int := board.stakes.getD i.toNat 0
def ownAt (holdings : Holdings) (i : Int) : Int := holdings.getD i.toNat 0

def shareAt (board : Board) (holdings : Holdings) (i : Int) : Int :=
  if ownAt holdings i > 0 then
    (ownAt holdings i * wad).fdiv (takenAt board i + ownAt holdings i)
  else 0

def prizeAt (board : Board) (strategy : Strategy) (holdings : Holdings) (i : Int) : Int :=
  board.keep * (board.total - takenAt board i + holdings.total - ownAt holdings i) / bpsScale
    + rewardValue board.reward strategy.unitValue

def shareTotal (board : Board) (holdings : Holdings) : Int :=
  sumOf (options.map (shareAt board holdings))

def crossAt (board : Board) (holdings : Holdings) (i : Int) : Int :=
  board.keep * (shareTotal board holdings - shareAt board holdings i) / bpsScale

theorem takenAt_nonneg {board : Board} (valid : board.Valid) (i : Int) : 0 ≤ takenAt board i := by
  unfold takenAt
  rw [List.getD_eq_getElem?_getD]
  cases found : board.stakes[i.toNat]? with
  | none => exact Int.le_refl 0
  | some t => exact valid.stakes_nonneg t (List.mem_of_getElem? found)

theorem takenAt_le {board : Board} {most : Int} (least : 0 ≤ most)
    (bounded : ∀ t ∈ board.stakes, t ≤ most) (i : Int) : takenAt board i ≤ most := by
  unfold takenAt
  rw [List.getD_eq_getElem?_getD]
  cases found : board.stakes[i.toNat]? with
  | none => exact least
  | some t => exact bounded t (List.mem_of_getElem? found)

theorem read_taken {board : Board} (valid : board.Valid) {i : Int} (member : i ∈ options) :
    read? board.stakes i = .ok (takenAt board i) := by
  obtain ⟨low, high⟩ := (mem_options i).1 member
  exact read?_ok low (by rw [valid.stakes_length]; exact high)

theorem read_own {holdings : Holdings} (length : holdings.length = optionCount) {i : Int}
    (member : i ∈ options) : read? holdings i = .ok (ownAt holdings i) := by
  obtain ⟨low, high⟩ := (mem_options i).1 member
  exact read?_ok low (by rw [length]; exact high)

theorem share?_ok {board : Board} {holdings : Holdings} (valid : board.Valid)
    (length : holdings.length = optionCount) {i : Int} (member : i ∈ options) :
    share? board holdings i = .ok (shareAt board holdings i) := by
  have nonneg := takenAt_nonneg valid i
  simp only [share?, shareAt, read_own length member, read_taken valid member, bind, Except.bind,
    pure, Except.pure]
  split
  · exact divide?_ok (by omega)
  · rfl

theorem prize?_ok {board : Board} (strategy : Strategy) {holdings : Holdings}
    (valid : board.Valid) (length : holdings.length = optionCount) {i : Int} (member : i ∈ options) :
    prize? board strategy holdings i = .ok (prizeAt board strategy holdings i) := by
  simp only [prize?, prizeAt, read_own length member, read_taken valid member, bind, Except.bind,
    pure, Except.pure]

def priced (board : Board) (strategy : Strategy) (holdings : Holdings) : Model where
  board := board
  strategy := strategy
  holdings := holdings
  prizes := options.map (prizeAt board strategy holdings)
  crosses := options.map (crossAt board holdings)

theorem price?_ok {board : Board} (strategy : Strategy) {holdings : Holdings} (valid : board.Valid)
    (length : holdings.length = optionCount) :
    price? board strategy holdings = .ok (priced board strategy holdings) := by
  have shares := mapM_ok options fun i member => share?_ok valid length member
  have prizes := mapM_ok options fun i member =>
    prize?_ok strategy valid length member
  simp only [price?, shares, prizes, bind, Except.bind, pure, Except.pure, priced, List.map_map]
  rfl

def quoteAt (m : Model) (i : Int) : Quote :=
  ⟨takenAt m.board i, prizeAt m.board m.strategy m.holdings i, crossAt m.board m.holdings i⟩

theorem getD_map_options (f : Int → Int) {i : Int} (member : i ∈ options) :
    (options.map f).getD i.toNat 0 = f i := by
  obtain ⟨low, high⟩ := (mem_options i).1 member
  have small : i.toNat < optionCount := by omega
  have same : max i 0 = i := by omega
  simp [options, small, same]

theorem read_row {f : Int → Int} {i : Int} (member : i ∈ options) :
    read? (options.map f) i = .ok (f i) := by
  obtain ⟨low, high⟩ := (mem_options i).1 member
  rw [read?_ok low (by rw [List.length_map, options_length]; exact high),
    getD_map_options f member]

theorem quote?_priced {board : Board} (strategy : Strategy) (holdings : Holdings)
    (valid : board.Valid) {i : Int} (member : i ∈ options) :
    (priced board strategy holdings).quote? i = .ok ((priced board strategy holdings).quoteAt i) := by
  simp only [quote?, taken?, priced, quoteAt, read_taken valid member, read_row member, bind,
    Except.bind, pure, Except.pure]

theorem shareAt_nonneg {board : Board} (valid : board.Valid) (holdings : Holdings) (i : Int) :
    0 ≤ shareAt board holdings i := by
  have taken := takenAt_nonneg valid i
  unfold shareAt
  split
  · exact Int.fdiv_nonneg (Int.mul_nonneg (by omega) (by decide)) (by omega)
  · exact Int.le_refl 0

theorem keep_nonneg {board : Board} (valid : board.Valid) : 0 ≤ board.keep := by
  have := valid.skim_le
  unfold Board.keep
  omega

theorem prizeAt_nonneg {board : Board} {strategy : Strategy} {holdings : Holdings}
    (valid : board.Valid) (unitValue : 0 ≤ strategy.unitValue) (held : ∀ x ∈ holdings, 0 ≤ x)
    (i : Int) : 0 ≤ prizeAt board strategy holdings i := by
  have taken : takenAt board i ≤ board.total := getD_le_sumOf valid.stakes_nonneg i.toNat
  have own : ownAt holdings i ≤ holdings.total := getD_le_sumOf held i.toNat
  have pool : 0 ≤ board.keep * (board.total - takenAt board i + holdings.total - ownAt holdings i) :=
    Int.mul_nonneg (keep_nonneg valid) (by omega)
  have reward : 0 ≤ board.reward * strategy.unitValue :=
    Int.mul_nonneg valid.reward_nonneg unitValue
  have skimmed := Int.ediv_nonneg pool (by decide : (0 : Int) ≤ bpsScale)
  have valued := Int.ediv_nonneg reward (by decide : (0 : Int) ≤ rewardScale)
  unfold prizeAt rewardValue
  omega

theorem crossAt_nonneg {board : Board} (valid : board.Valid) (holdings : Holdings) {i : Int}
    (member : i ∈ options) : 0 ≤ crossAt board holdings i := by
  have nonneg : ∀ x ∈ options.map (shareAt board holdings), 0 ≤ x := by
    intro x found
    obtain ⟨j, _, rfl⟩ := List.mem_map.1 found
    exact shareAt_nonneg valid holdings j
  have share := getD_le_sumOf nonneg i.toNat
  rw [getD_map_options _ member] at share
  have rest : 0 ≤ shareTotal board holdings - shareAt board holdings i := by
    unfold shareTotal
    omega
  exact Int.ediv_nonneg (Int.mul_nonneg (keep_nonneg valid) rest) (by decide)

theorem quoteAt_nonneg {board : Board} {strategy : Strategy} {holdings : Holdings}
    (valid : board.Valid) (unitValue : 0 ≤ strategy.unitValue) (held : ∀ x ∈ holdings, 0 ≤ x)
    {i : Int} (member : i ∈ options) :
    0 ≤ ((priced board strategy holdings).quoteAt i).taken ∧
      0 ≤ ((priced board strategy holdings).quoteAt i).prize ∧
      0 ≤ ((priced board strategy holdings).quoteAt i).cross :=
  ⟨takenAt_nonneg valid i, prizeAt_nonneg valid unitValue held i,
    crossAt_nonneg valid holdings member⟩

end Parimutuel.Model
