import Parimutuel.Proofs.Pricing.Renumbered
import Parimutuel.Proofs.Search.Solution

namespace Parimutuel

namespace Renumbering

variable (σ : Renumbering)

-- The members of a row are those of another one, renumbered.
def Lists (a b : List Int) : Prop := ∀ i, σ i ∈ b ↔ i ∈ a

variable {σ} {a b : List Int}

theorem Lists.nil_iff (lists : σ.Lists a b) : b = [] ↔ a = [] := by
  rw [List.eq_nil_iff_forall_not_mem, List.eq_nil_iff_forall_not_mem]
  constructor
  · intro nobody i member
    exact nobody (σ i) ((lists i).2 member)
  · intro nobody i member
    apply nobody (σ.symm i)
    rw [← lists, σ.apply_symm]
    exact member

theorem Lists.perm (lists : σ.Lists a b) (left : a.Nodup) (right : b.Nodup) : b.Perm (a.map σ) := by
  rw [List.perm_ext_iff_of_nodup right (left.map σ.number.injective)]
  intro i
  rw [List.mem_map]
  constructor
  · intro member
    refine ⟨σ.symm i, ?_, σ.apply_symm i⟩
    rw [← lists, σ.apply_symm]
    exact member
  · rintro ⟨j, member, rfl⟩
    exact (lists j).2 member

theorem Lists.eraseDups_perm (lists : σ.Lists a b) : b.eraseDups.Perm (a.eraseDups.map σ) := by
  apply Lists.perm _ (Allotment.eraseDups_nodup a) (Allotment.eraseDups_nodup b)
  intro i
  rw [List.mem_eraseDups, List.mem_eraseDups]
  exact lists i

end Renumbering

def Solution.renumber (σ : Renumbering) (r : Solution) : Solution :=
  { r with stakes := Stakes.sorted (r.stakes.renumber σ) }

namespace ShadowPrice

variable {σ : Renumbering} {m n : Model} {a b : List Int}

theorem positive_renumber (s : Stakes) : (s.renumber σ).positive = s.positive.renumber σ := by
  rw [Stakes.positive, Stakes.positive, Stakes.renumber, Stakes.renumber, List.filter_map]
  rfl

theorem demand_renumbered (quotes : σ.Requotes m n) (lists : σ.Lists a b)
    (known : ∀ i ∈ a, i ∈ options) (cap price : Int) :
    (demand n cap b.eraseDups price).Perm ((demand m cap a.eraseDups price).renumber σ) := by
  have wishes : (demand m cap a.eraseDups price).renumber σ =
      demand n cap (a.eraseDups.map σ) price := by
    rw [demand, demand, Stakes.renumber, List.map_map, List.map_map]
    apply List.map_congr_left
    intro i member
    have quote := quotes i (known i (List.mem_eraseDups.1 member))
    simp only [Function.comp_def, wish, quote]
  rw [wishes]
  exact lists.eraseDups_perm.map _

theorem spending_renumbered (quotes : σ.Requotes m n) (lists : σ.Lists a b)
    (known : ∀ i ∈ a, i ∈ options) (cap : Int) :
    spending n cap b.eraseDups = spending m cap a.eraseDups := by
  funext price
  rw [spending, spending, Stakes.total_perm (demand_renumbered quotes lists known cap price),
    Stakes.total_renumber]

theorem funded_renumbered {s s' : Stakes} (distinct : s.numbers.Nodup)
    (perm : s'.Perm (s.renumber σ)) : funded s' = Stakes.sorted ((funded s).renumber σ) := by
  have fewer : s.positive.numbers.Nodup := distinct.sublist ((Stakes.positive_sublist s).map _)
  have kept : (funded s).numbers.Nodup := (((funded_perm s).map Prod.fst).nodup_iff).2 fewer
  apply Stakes.sorted_eq_of_perm (Stakes.renumber_distinct σ kept)
  have left : s'.positive.Perm (s.positive.renumber σ) := positive_renumber s ▸ perm.filter _
  have right : (s.positive.renumber σ).Perm ((funded s).renumber σ) := (funded_perm s).symm.map _
  exact left.trans right

theorem ceiling_renumbered (quotes : σ.Requotes m n) (lists : σ.Lists a b)
    (known : ∀ i ∈ a, i ∈ options) : ceiling n b = ceiling m a := by
  have same : ∀ bound, ceiling n b ≤ bound ↔ ceiling m a ≤ bound := by
    intro bound
    rw [ceiling_le_iff, ceiling_le_iff]
    apply and_congr_right
    intro _
    constructor
    · intro each i member
      have first := each (σ i) ((lists i).2 member)
      rwa [quotes i (known i member)] at first
    · intro each i member
      obtain ⟨j, rfl⟩ : ∃ j, σ j = i := ⟨σ.symm i, σ.apply_symm i⟩
      have inside := (lists j).1 member
      rw [quotes j (known j inside)]
      exact each j inside
  exact Int.le_antisymm ((same _).2 (Int.le_refl _)) ((same _).1 (Int.le_refl _))

theorem solution_renumbered (quotes : σ.Requotes m n) (lists : σ.Lists a b)
    (known : ∀ i ∈ a, i ∈ options) (t : Terms) :
    solution n b t = (solution m a t).renumber σ := by
  have total := spending_renumbered quotes lists known t.cap
  have stakes : ∀ price, funded (demand n t.cap b.eraseDups price) =
      Stakes.sorted ((funded (demand m t.cap a.eraseDups price)).renumber σ) := fun price =>
    funded_renumbered (demand_distinct m t.cap a price)
      (demand_renumbered quotes lists known t.cap price)
  have opened : opening n b t = opening m a t := by
    rw [opening, opening, total, ceiling_renumbered quotes lists known]
  have last : settled n b t = settled m a t := by rw [settled, settled, opened, total]
  have nothing : Stakes.sorted [] = [] := List.mergeSort_nil
  unfold solution Solution.renumber
  simp only [lists.nil_iff, stakes, total, opened, last]
  split
  · simp only [Stakes.renumber_nil, nothing]
  · split
    · rfl
    · split
      · rfl
      · simp only [Stakes.renumber_nil, nothing]

theorem renumber_stakes_inj {t t' : Terms} :
    ((solution m a t).renumber σ).stakes = ((solution n b t').renumber σ).stakes ↔
      (solution m a t).stakes = (solution n b t').stakes := by
  constructor
  · intro same
    have first := Stakes.sorted_perm ((solution m a t).stakes.renumber σ)
    have second := Stakes.sorted_perm ((solution n b t').stakes.renumber σ)
    have sorted : Stakes.sorted ((solution m a t).stakes.renumber σ) =
        Stakes.sorted ((solution n b t').stakes.renumber σ) := same
    rw [← sorted] at second
    have back : (solution m a t).stakes.Perm (solution n b t').stakes := by
      rw [← Stakes.renumber_symm σ (solution m a t).stakes, ← Stakes.renumber_symm σ (solution n b t').stakes]
      exact (first.symm.trans second).map _
    rw [← Stakes.sorted_of_numbers (solution_numbers m a t),
      ← Stakes.sorted_of_numbers (solution_numbers n b t')]
    apply Stakes.sorted_eq_of_perm _ back
    exact (solution_numbers n b t').imp fun {i j} less => by omega
  · intro same
    rw [Solution.renumber, Solution.renumber, same]

end ShadowPrice
end Parimutuel
