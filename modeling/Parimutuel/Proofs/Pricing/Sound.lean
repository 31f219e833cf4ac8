import Parimutuel.Pricing.Lemmas
import Parimutuel.Proofs.Stakes

namespace Parimutuel

-- What a quote answers when others' stake on the option is not negative.
def Quote.value (q : Quote) (stake : Int) : Int := if stake ≤ 0 then 0 else q.gain stake

def Quote.peak (q : Quote) (price : Int) : Int :=
  if q.taken = 0 ∨ q.prize = 0 then 0 else max 0 (floorRoot (q.peakSquare price).toNat - q.taken)

theorem Quote.peakSquare_nonneg {q : Quote} (price : Int) (taken : 0 ≤ q.taken) (prize : 0 ≤ q.prize) :
    0 ≤ q.peakSquare price := by
  apply Int.fdiv_nonneg
  · exact Int.mul_nonneg (Int.mul_nonneg taken prize) (by decide)
  · exact Int.le_trans (by decide) (Int.le_max_left 1 (q.hurdle price))

theorem Quote.optimum?_peak {q : Quote} (price : Int) (taken : 0 ≤ q.taken) (prize : 0 ≤ q.prize) :
    q.optimum? price = .ok (q.peak price) := by
  have square := peakSquare_nonneg price taken prize
  unfold optimum? peak
  split
  · rfl
  · rw [if_neg (by omega)]

namespace Model

theorem rivals_eq_sum {board : Board} {holdings : Holdings} (valid : board.Valid)
    (width : holdings.length = optionCount) {i : Int} (member : i ∈ options) :
    board.total - takenAt board i + holdings.total - ownAt holdings i =
      ∑ j ∈ grid.erase i, (takenAt board j + ownAt holdings j) := by
  have taken : board.total = ∑ j ∈ grid, takenAt board j := sumOf_getD valid.stakes_length
  have own : holdings.total = ∑ j ∈ grid, ownAt holdings j := sumOf_getD width
  have inside := mem_grid.2 member
  rw [taken, own, ← Finset.add_sum_erase grid _ inside, ← Finset.add_sum_erase grid _ inside,
    Finset.sum_add_distrib]
  omega

theorem prizeAt_eq_sum {board : Board} (strategy : Strategy) {holdings : Holdings}
    (valid : board.Valid) (width : holdings.length = optionCount) {i : Int} (member : i ∈ options) :
    prizeAt board strategy holdings i =
      board.keep * (∑ j ∈ grid.erase i, (takenAt board j + ownAt holdings j)) / bpsScale
        + rewardValue board.reward strategy.unitValue := by
  rw [prizeAt, rivals_eq_sum valid width member]

theorem crossAt_eq_sum (board : Board) (holdings : Holdings) {i : Int} (member : i ∈ options) :
    crossAt board holdings i =
      board.keep * (∑ j ∈ grid.erase i, shareAt board holdings j) / bpsScale := by
  have shares : shareTotal board holdings - shareAt board holdings i =
      ∑ j ∈ grid.erase i, shareAt board holdings j := by
    rw [shareTotal, sumOf_map_options, ← Finset.add_sum_erase grid _ (mem_grid.2 member)]
    omega
  rw [crossAt, shares]

theorem ownAt_nonneg {holdings : Holdings} (held : ∀ x ∈ holdings, 0 ≤ x) (i : Int) :
    0 ≤ ownAt holdings i := by
  unfold ownAt
  rw [List.getD_eq_getElem?_getD]
  cases found : holdings[i.toNat]? with
  | none => exact Int.le_refl 0
  | some x => exact held x (List.mem_of_getElem? found)

end Model

namespace Stakes

def holdings (s : Stakes) : Holdings := options.map fun i => max 0 (s.amount i)

theorem holdings_length (s : Stakes) : s.holdings.length = optionCount := by
  rw [holdings, List.length_map, options_length]

theorem holdings_nonneg (s : Stakes) : ∀ x ∈ s.holdings, 0 ≤ x := by
  intro x member
  obtain ⟨i, _, rfl⟩ := List.mem_map.1 member
  exact Int.le_max_left 0 _

theorem ownAt_holdings (s : Stakes) {i : Int} (member : i ∈ options) :
    Model.ownAt s.holdings i = max 0 (s.amount i) :=
  Model.getD_map_options (fun i => max 0 (s.amount i)) member

theorem set_options (f : Int → Int) {i : Int} (member : i ∈ options) (x : Int) :
    (options.map f).set i.toNat x = options.map (Function.update f i x) := by
  obtain ⟨low, high⟩ := (mem_options i).1 member
  apply List.ext_getElem
  · simp
  · intro k small inside
    simp only [List.getElem_set, List.getElem_map, options, List.getElem_range, Int.ofNat_eq_natCast]
    by_cases same : i.toNat = k
    · rw [if_pos same, show (k : Int) = i by omega, Function.update_self]
    · rw [if_neg same, Function.update_of_ne (by omega)]

-- Each option named once, the order of writing does not matter.
theorem foldlM_write_options {s : Stakes} (placed : s.Placed) (f : Int → Int) :
    s.foldlM (fun row p => write? row p.1 (max 0 p.2)) (options.map f) =
      .ok (options.map fun i => if i ∈ s.numbers then max 0 (s.amount i) else f i) := by
  induction s generalizing f with
  | nil => simp [numbers, pure, Except.pure]
  | cons p rest ih =>
    have member := placed.known p.1 List.mem_cons_self
    obtain ⟨low, high⟩ := (mem_options p.1).1 member
    have written : write? (options.map f) p.1 (max 0 p.2) =
        .ok (options.map (Function.update f p.1 (max 0 p.2))) := by
      rw [write?_ok _ low (by rw [List.length_map, options_length]; exact high),
        set_options f member]
    rw [List.foldlM_cons, written]
    simp only [bind, Except.bind]
    rw [ih placed.tail]
    congr 1
    apply List.map_congr_left
    intro i _
    have fresh : p.1 ∉ numbers rest := (List.nodup_cons.1 placed.distinct).1
    rw [amount_cons, numbers_cons]
    by_cases same : i = p.1
    · subst same
      rw [if_neg fresh, Function.update_self, if_pos List.mem_cons_self, if_pos rfl]
    · rw [Function.update_of_ne same, if_neg same]
      simp [same]

theorem ofStakes?_placed {s : Stakes} (placed : s.Placed) :
    Holdings.ofStakes? s = .ok s.holdings := by
  have empty : Holdings.none = options.map fun _ => 0 := by decide
  rw [Holdings.ofStakes?, empty, foldlM_write_options placed]
  congr 1
  apply List.map_congr_left
  intro i _
  split
  · rfl
  · rename_i absent
    rw [amount_of_not_mem absent]
    rfl

end Stakes

theorem Holdings.ownAt_none (i : Int) : Model.ownAt Holdings.none i = 0 := by
  rw [Model.ownAt, Holdings.none, List.getD_eq_getElem?_getD, List.getElem?_replicate]
  split <;> rfl

structure Model.Sound (m : Model) : Prop where
  board : m.board.Valid
  unitValue : 0 ≤ m.strategy.unitValue
  width : m.holdings.length = optionCount
  held : ∀ x ∈ m.holdings, 0 ≤ x
  priced : m = Model.priced m.board m.strategy m.holdings

namespace Model

variable {m : Model}

theorem priced_sound {board : Board} {strategy : Strategy} {holdings : Holdings}
    (valid : board.Valid) (unitValue : 0 ≤ strategy.unitValue) (width : holdings.length = optionCount)
    (held : ∀ x ∈ holdings, 0 ≤ x) : (priced board strategy holdings).Sound :=
  ⟨valid, unitValue, width, held, rfl⟩

theorem Sound.quoteAt_nonneg (sound : m.Sound) {i : Int} (member : i ∈ options) :
    0 ≤ (m.quoteAt i).taken ∧ 0 ≤ (m.quoteAt i).prize ∧ 0 ≤ (m.quoteAt i).cross := by
  have priced := sound.priced
  rw [priced]
  exact Model.quoteAt_nonneg sound.board sound.unitValue sound.held member

theorem Sound.quote? (sound : m.Sound) {i : Int} (member : i ∈ options) :
    m.quote? i = .ok (m.quoteAt i) := by
  have quoted := quote?_priced m.strategy m.holdings sound.board member
  rwa [← sound.priced] at quoted

theorem Sound.value? (sound : m.Sound) {i : Int} (member : i ∈ options) (stake : Int) :
    m.value? i stake = .ok ((m.quoteAt i).value stake) := by
  unfold Model.value? Quote.value
  by_cases nothing : stake ≤ 0
  · rw [if_pos nothing, if_pos nothing]
  · rw [if_neg nothing, if_neg nothing, sound.quote? member]
    have answer := Quote.value?_of_nonneg _ stake (sound.quoteAt_nonneg member).1
    rwa [if_neg nothing] at answer

theorem Sound.marginal? (sound : m.Sound) {i : Int} (member : i ∈ options) (stake : Int) :
    m.marginal? i stake = .ok ((m.quoteAt i).marginal stake) := by
  rw [Model.marginal?, sound.quote? member]
  rfl

theorem Sound.optimum? (sound : m.Sound) {i : Int} (member : i ∈ options) (price : Int) :
    m.optimum? i price = .ok ((m.quoteAt i).peak price) := by
  obtain ⟨taken, prize, _⟩ := sound.quoteAt_nonneg member
  rw [Model.optimum?, sound.quote? member]
  exact Quote.optimum?_peak price taken prize

theorem Sound.flat? (sound : m.Sound) {i : Int} (member : i ∈ options) :
    m.flat? i = .ok ((m.quoteAt i).taken == 0) := by
  rw [Model.flat?, Model.taken?, read_taken sound.board member]
  rfl

def against (m : Model) (s : Stakes) : Model := priced m.board m.strategy s.holdings

theorem Sound.against (sound : m.Sound) (s : Stakes) : (m.against s).Sound :=
  priced_sound sound.board sound.unitValue s.holdings_length s.holdings_nonneg

theorem Sound.withStakes? (sound : m.Sound) {s : Stakes} (placed : s.Placed) :
    m.withStakes? s = .ok (m.against s) := by
  rw [Model.withStakes?, Stakes.ofStakes?_placed placed]
  exact price?_ok m.strategy sound.board s.holdings_length

def bare (board : Board) (s : Strategy) : Model := priced board s Holdings.none

theorem bare?_ok {board : Board} (s : Strategy) (valid : board.Valid) :
    bare? board s = .ok (bare board s) :=
  price?_ok s valid Holdings.none_length

theorem bare_sound {board : Board} {s : Strategy} (valid : board.Valid) (unitValue : 0 ≤ s.unitValue) :
    (bare board s).Sound :=
  priced_sound valid unitValue Holdings.none_length (by decide)

theorem bare_cross (board : Board) (s : Strategy) {i : Int} (member : i ∈ options) :
    ((bare board s).quoteAt i).cross = 0 := by
  have nothing : ∀ j, shareAt board Holdings.none j = 0 := fun j => by
    rw [shareAt, Holdings.ownAt_none, if_neg (Int.lt_irrefl 0)]
  have cross : ((bare board s).quoteAt i).cross = _ := crossAt_eq_sum board Holdings.none member
  rw [cross, Finset.sum_eq_zero fun j _ => nothing j, Int.mul_zero, Int.zero_ediv]

end Model
end Parimutuel
