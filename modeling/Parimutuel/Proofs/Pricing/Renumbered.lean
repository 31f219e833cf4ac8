import Parimutuel.Proofs.Pricing.Sound

namespace Parimutuel

open Model (takenAt ownAt shareAt)

-- Each option gets the number of an option. What is no option stays outside.
structure Renumbering where
  number : Equiv.Perm Int
  inside : ∀ i, number i ∈ options ↔ i ∈ options

namespace Renumbering

instance : CoeFun Renumbering fun _ => Int → Int := ⟨fun σ => σ.number⟩

def symm (σ : Renumbering) : Renumbering where
  number := σ.number.symm
  inside i := by rw [← σ.inside, Equiv.apply_symm_apply]

def swap {i j : Int} (first : i ∈ options) (second : j ∈ options) : Renumbering where
  number := Equiv.swap i j
  inside k := by
    by_cases left : k = i
    · rw [left, Equiv.swap_apply_left]
      exact iff_of_true second first
    · by_cases right : k = j
      · rw [right, Equiv.swap_apply_right]
        exact iff_of_true first second
      · rw [Equiv.swap_apply_of_ne_of_ne left right]

variable (σ : Renumbering)

@[simp] theorem symm_apply (i : Int) : σ.symm (σ i) = i := σ.number.symm_apply_apply i

@[simp] theorem apply_symm (i : Int) : σ (σ.symm i) = i := σ.number.apply_symm_apply i

theorem sum_grid (f : Int → Int) : ∑ i ∈ grid, f (σ i) = ∑ i ∈ grid, f i :=
  Finset.sum_equiv σ.number (fun i => by rw [mem_grid, mem_grid, σ.inside]) fun _ _ => rfl

-- The same round with its options under other numbers. How many others bet on an option plays no part.
structure Moves (board board' : Board) : Prop where
  taken : ∀ i ∈ options, takenAt board' (σ i) = takenAt board i
  skim : board'.skim = board.skim
  remaining : board'.remaining = board.remaining
  isOpen : board'.isOpen = board.isOpen
  reward : board'.reward = board.reward

-- Each option is quoted by `n` under its new number as by `m` under its old one.
def Requotes (m n : Model) : Prop := ∀ i ∈ options, n.quoteAt (σ i) = m.quoteAt i

variable {σ} {board board' : Board}

theorem Moves.keep (moved : σ.Moves board board') : board'.keep = board.keep := by
  rw [Board.keep, Board.keep, moved.skim]

theorem sum_moved {f g : Int → Int} (moved : ∀ i ∈ options, g (σ i) = f i) :
    ∑ i ∈ grid, g i = ∑ i ∈ grid, f i := by
  rw [← σ.sum_grid g]
  exact Finset.sum_congr rfl fun i member => moved i (mem_grid.1 member)

theorem Moves.priced (moved : σ.Moves board board') (valid : board.Valid) (valid' : board'.Valid)
    (s : Strategy) {holdings holdings' : Holdings} (width : holdings.length = optionCount)
    (width' : holdings'.length = optionCount)
    (own : ∀ i ∈ options, ownAt holdings' (σ i) = ownAt holdings i) :
    σ.Requotes (Model.priced board s holdings) (Model.priced board' s holdings') := by
  have share : ∀ i ∈ options, shareAt board' holdings' (σ i) = shareAt board holdings i := by
    intro i member
    rw [shareAt, shareAt, own i member, moved.taken i member]
  have staked : board'.total = board.total := by
    rw [Board.total, Board.total, sumOf_getD valid'.stakes_length, sumOf_getD valid.stakes_length]
    exact sum_moved moved.taken
  have held : holdings'.total = holdings.total := by
    rw [Holdings.total, Holdings.total, sumOf_getD width', sumOf_getD width]
    exact sum_moved own
  have shares : Model.shareTotal board' holdings' = Model.shareTotal board holdings := by
    rw [Model.shareTotal, Model.shareTotal, sumOf_map_options, sumOf_map_options]
    exact sum_moved share
  intro i member
  simp only [Model.quoteAt, Model.priced, Model.prizeAt, Model.crossAt, moved.taken i member,
    own i member, share i member, moved.keep, moved.reward, staked, held, shares]

end Renumbering

namespace Stakes

variable (σ : Renumbering)

def renumber (s : Stakes) : Stakes := s.map fun p => (σ p.1, p.2)

@[simp] theorem renumber_nil : renumber σ [] = [] := rfl

@[simp] theorem renumber_cons (p : Int × Int) (s : Stakes) :
    renumber σ (p :: s) = (σ p.1, p.2) :: s.renumber σ := rfl

theorem numbers_renumber (s : Stakes) : (s.renumber σ).numbers = s.numbers.map σ := by
  rw [renumber, numbers, numbers, List.map_map, List.map_map]
  rfl

theorem total_renumber (s : Stakes) : (s.renumber σ).total = s.total := by
  rw [total, renumber, List.map_map]
  rfl

theorem renumber_append (s t : Stakes) : renumber σ (s ++ t) = s.renumber σ ++ t.renumber σ :=
  List.map_append

@[simp] theorem renumber_symm (s : Stakes) : (s.renumber σ).renumber σ.symm = s := by
  rw [renumber, renumber, List.map_map]
  simp [Function.comp_def]

@[simp] theorem symm_renumber (s : Stakes) : (s.renumber σ.symm).renumber σ = s := by
  rw [renumber, renumber, List.map_map]
  simp [Function.comp_def]

theorem renumber_distinct {s : Stakes} (distinct : s.numbers.Nodup) : (s.renumber σ).numbers.Nodup := by
  rw [numbers_renumber]
  exact distinct.map σ.number.injective

theorem Placed.renumber {s : Stakes} (placed : s.Placed) : (s.renumber σ).Placed := by
  refine ⟨renumber_distinct σ placed.distinct, ?_⟩
  intro i member
  rw [numbers_renumber] at member
  obtain ⟨j, inside, rfl⟩ := List.mem_map.1 member
  exact (σ.inside j).2 (placed.known j inside)

theorem amount_renumber (s : Stakes) (i : Int) : (s.renumber σ).amount (σ i) = s.amount i := by
  induction s with
  | nil => rfl
  | cons p rest ih =>
    rw [renumber_cons, amount_cons, amount_cons, ih]
    simp only [σ.number.injective.eq_iff]

variable {σ}

theorem amount_renumbered {s s' : Stakes} (distinct : s.numbers.Nodup) (perm : s'.Perm (s.renumber σ))
    (i : Int) : s'.amount (σ i) = s.amount i := by
  rw [← amount_perm (renumber_distinct σ distinct) perm.symm, amount_renumber]

end Stakes

theorem Renumbering.Moves.against {σ : Renumbering} {board board' : Board} (moved : σ.Moves board board')
    (valid : board.Valid) (valid' : board'.Valid) (s : Strategy) {held held' : Stakes}
    (distinct : held.numbers.Nodup) (perm : held'.Perm (held.renumber σ)) :
    σ.Requotes ((Model.bare board s).against held) ((Model.bare board' s).against held') := by
  apply moved.priced valid valid' s held.holdings_length held'.holdings_length
  intro i member
  rw [Stakes.ownAt_holdings _ ((σ.inside i).2 member), Stakes.ownAt_holdings _ member,
    Stakes.amount_renumbered distinct perm]

theorem Renumbering.Moves.bare {σ : Renumbering} {board board' : Board} (moved : σ.Moves board board')
    (valid : board.Valid) (valid' : board'.Valid) (s : Strategy) :
    σ.Requotes (Model.bare board s) (Model.bare board' s) := by
  apply moved.priced valid valid' s Holdings.none_length Holdings.none_length
  intro i member
  have nothing : ∀ j ∈ options, ownAt Holdings.none j = 0 := by decide
  rw [nothing i member, nothing (σ i) ((σ.inside i).2 member)]

end Parimutuel
