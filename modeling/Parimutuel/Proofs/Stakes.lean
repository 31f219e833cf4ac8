import Mathlib.Algebra.BigOperators.Group.Finset.Piecewise
import Parimutuel.Unchecked.Agreement.Search
import Parimutuel.Unchecked.Agreement.Snap

namespace Parimutuel

def grid : Finset Int := options.toFinset

theorem mem_grid {i : Int} : i ∈ grid ↔ i ∈ options := List.mem_toFinset

theorem options_nodup : options.Nodup := by decide

theorem sumOf_append (row more : List Int) : sumOf (row ++ more) = sumOf row + sumOf more := by
  induction row with
  | nil => exact (Int.zero_add _).symm
  | cons x rest ih =>
    rw [List.cons_append, sumOf, sumOf, ih]
    exact (Int.add_assoc x _ _).symm

theorem sumOf_perm {row other : List Int} (perm : row.Perm other) : sumOf row = sumOf other := by
  induction perm with
  | nil => rfl
  | cons x _ ih => rw [sumOf, sumOf, ih]
  | swap x y rest =>
    simp only [sumOf]
    omega
  | trans _ _ first second => exact first.trans second

theorem sumOf_map_nodup {row : List Int} (distinct : row.Nodup) (f : Int → Int) :
    sumOf (row.map f) = ∑ i ∈ row.toFinset, f i := by
  have plain : ∀ row : List Int, sumOf row = row.sum := by
    intro row
    induction row with
    | nil => rfl
    | cons x rest ih => rw [sumOf, ih, List.sum_cons]
  rw [plain, List.sum_toFinset f distinct]

theorem sumOf_map_options (f : Int → Int) : sumOf (options.map f) = ∑ i ∈ grid, f i :=
  sumOf_map_nodup options_nodup f

-- A row for all options is what it says of each of them.
theorem map_getD_options {row : List Int} (width : row.length = optionCount) :
    options.map (fun i => row.getD i.toNat 0) = row := by
  apply List.ext_getElem
  · rw [List.length_map, options_length, width]
  · intro k small inside
    have bound : k < optionCount := by rwa [← width]
    simp [options, List.getD_eq_getElem?_getD, inside]

theorem sumOf_getD {row : List Int} (width : row.length = optionCount) :
    sumOf row = ∑ i ∈ grid, row.getD i.toNat 0 := by
  rw [← sumOf_map_options fun i => row.getD i.toNat 0, map_getD_options width]

-- Stakes on known options, each named once.
structure Stakes.Placed (s : Stakes) : Prop where
  distinct : s.numbers.Nodup
  known : ∀ i ∈ s.numbers, i ∈ options

namespace Stakes

theorem Placed.nil : Placed [] := ⟨List.nodup_nil, by intro i member; cases member⟩

theorem Placed.tail {p : Int × Int} {s : Stakes} (placed : Placed (p :: s)) : s.Placed :=
  ⟨(List.nodup_cons.1 placed.distinct).2, fun i member =>
    placed.known i (List.mem_cons_of_mem p.1 member)⟩

theorem Placed.sublist {s t : Stakes} (placed : t.Placed) (inside : s.Sublist t) : s.Placed :=
  ⟨placed.distinct.sublist (inside.map _), fun i member =>
    placed.known i ((inside.map Prod.fst).subset member)⟩

@[simp] theorem numbers_cons (p : Int × Int) (s : Stakes) : numbers (p :: s) = p.1 :: s.numbers := rfl

theorem amount_cons (p : Int × Int) (s : Stakes) (i : Int) :
    amount (p :: s) i = if i = p.1 then p.2 else s.amount i := by
  obtain ⟨k, x⟩ := p
  by_cases same : i = k
  · simp [amount, same]
  · simp [amount, List.lookup_cons, beq_eq_false_iff_ne.2 same, same]

theorem amount_of_not_mem {s : Stakes} {i : Int} (absent : i ∉ s.numbers) : s.amount i = 0 := by
  induction s with
  | nil => rfl
  | cons p rest ih =>
    simp only [numbers_cons, List.mem_cons, not_or] at absent
    rw [amount_cons, if_neg absent.1]
    exact ih absent.2

theorem amount_of_mem {s : Stakes} (distinct : s.numbers.Nodup) {p : Int × Int} (member : p ∈ s) :
    s.amount p.1 = p.2 := by
  induction s with
  | nil => cases member
  | cons q rest ih =>
    have fresh := List.nodup_cons.1 distinct
    rw [amount_cons]
    rcases List.mem_cons.1 member with rfl | later
    · rw [if_pos rfl]
    · have other : p.1 ≠ q.1 := fun same => fresh.1 (same ▸ List.mem_map_of_mem later)
      rw [if_neg other]
      exact ih fresh.2 later

@[simp] theorem amount_nil (i : Int) : amount [] i = 0 := rfl

theorem Placed.perm {s t : Stakes} (placed : s.Placed) (perm : s.Perm t) : t.Placed :=
  ⟨((perm.map Prod.fst).nodup_iff).1 placed.distinct, fun i member =>
    placed.known i ((perm.map Prod.fst).mem_iff.2 member)⟩

theorem amount_perm {s t : Stakes} (distinct : s.numbers.Nodup) (perm : s.Perm t) (i : Int) :
    s.amount i = t.amount i := by
  have other : t.numbers.Nodup := ((perm.map Prod.fst).nodup_iff).1 distinct
  by_cases member : i ∈ s.numbers
  · obtain ⟨p, inside, rfl⟩ := List.mem_map.1 member
    rw [amount_of_mem distinct inside, amount_of_mem other (perm.mem_iff.1 inside)]
  · have absent : i ∉ t.numbers := fun inside => member ((perm.map Prod.fst).mem_iff.2 inside)
    rw [amount_of_not_mem member, amount_of_not_mem absent]

theorem total_perm {s t : Stakes} (perm : s.Perm t) : s.total = t.total := by
  exact sumOf_perm (perm.map Prod.snd)

theorem sorted_perm (s : Stakes) : s.sorted.Perm s := List.mergeSort_perm s _

-- Whatever order different options come in, sorting gives the same.
theorem sorted_eq_of_perm {s t : Stakes} (distinct : t.numbers.Nodup) (perm : s.Perm t) :
    s.sorted = t.sorted :=
  Entries.eq_sorted distinct (Entries.sorted_ascending s) ((sorted_perm s).trans perm)

theorem sorted_numbers {s : Stakes} (distinct : s.numbers.Nodup) :
    s.sorted.numbers.Pairwise (· < ·) := by
  have order : s.sorted.numbers.Pairwise (· ≤ ·) := List.pairwise_map.2 (Entries.sorted_ascending s)
  have fresh : s.sorted.numbers.Nodup := (((sorted_perm s).map Prod.fst).nodup_iff).2 distinct
  exact (order.and fresh).imp fun {a b} both => by omega

theorem sorted_of_numbers {s : Stakes} (order : s.numbers.Pairwise (· < ·)) : s.sorted = s := by
  have ascending : Entries.Ascending s := (List.pairwise_map.1 order).imp fun {p q} less => by omega
  have distinct : s.numbers.Nodup := order.imp fun {a b} less => by omega
  exact (Entries.eq_sorted distinct ascending (.refl s)).symm

theorem eq_of_subset {s t : Stakes} (left : s.numbers.Pairwise (· < ·))
    (right : t.numbers.Pairwise (· < ·)) (inside : s ⊆ t) (back : t ⊆ s) : s = t := by
  have distinct : s.numbers.Nodup := left.imp Int.ne_of_lt
  have distinct' : t.numbers.Nodup := right.imp Int.ne_of_lt
  have perm : s.Perm t := by
    rw [List.perm_ext_iff_of_nodup (List.Nodup.of_map Prod.fst distinct)
      (List.Nodup.of_map Prod.fst distinct')]
    exact fun p => ⟨fun member => inside member, fun member => back member⟩
  rw [← sorted_of_numbers left, ← sorted_of_numbers right]
  exact sorted_eq_of_perm distinct' perm

theorem numbers_of_mem {s : Stakes} {p : Int × Int} (member : p ∈ s) : p.1 ∈ s.numbers :=
  List.mem_map_of_mem member

theorem mem_of_amount {s : Stakes} {i : Int} (staked : s.amount i ≠ 0) : (i, s.amount i) ∈ s := by
  induction s with
  | nil => exact absurd rfl staked
  | cons p rest ih =>
    rw [amount_cons] at staked ⊢
    by_cases same : i = p.1
    · subst same
      rw [if_pos rfl]
      exact List.mem_cons_self
    · rw [if_neg same] at staked ⊢
      exact List.mem_cons_of_mem p (ih staked)

theorem amount_nonneg {s : Stakes} (nonneg : ∀ p ∈ s, 0 ≤ p.2) (i : Int) : 0 ≤ s.amount i := by
  by_cases staked : s.amount i = 0
  · omega
  · exact nonneg _ (mem_of_amount staked)

theorem sumOf_eq_sum_amount {s : Stakes} (placed : s.Placed) {f : Int → Int → Int}
    (zero : ∀ i, f i 0 = 0) : sumOf (s.map fun p => f p.1 p.2) = ∑ i ∈ grid, f i (s.amount i) := by
  induction s with
  | nil => simp [sumOf, zero]
  | cons p rest ih =>
    have fresh : p.1 ∉ numbers rest := (List.nodup_cons.1 placed.distinct).1
    have inside : p.1 ∈ grid := mem_grid.2 (placed.known p.1 List.mem_cons_self)
    have apart : ∀ i, f i (amount (p :: rest) i) =
        (if i = p.1 then f p.1 p.2 else 0) + f i (amount rest i) := by
      intro i
      rw [amount_cons]
      by_cases same : i = p.1
      · rw [if_pos same, if_pos same, same, amount_of_not_mem fresh, zero]
        omega
      · rw [if_neg same, if_neg same]
        omega
    rw [List.map_cons, sumOf, ih placed.tail, Finset.sum_congr rfl fun i _ => apart i,
      Finset.sum_add_distrib, Finset.sum_ite_eq', if_pos inside]

theorem total_eq_sum {s : Stakes} (placed : s.Placed) : s.total = ∑ i ∈ grid, s.amount i :=
  sumOf_eq_sum_amount (f := fun _ x => x) placed fun _ => rfl

def positive (s : Stakes) : Stakes := s.filter fun p => 0 < p.2

theorem positive_sublist (s : Stakes) : s.positive.Sublist s := List.filter_sublist

theorem mem_positive {s : Stakes} {p : Int × Int} : p ∈ s.positive ↔ p ∈ s ∧ 0 < p.2 := by
  simp [positive]

theorem amount_positive {s : Stakes} (distinct : s.numbers.Nodup) (nonneg : ∀ p ∈ s, 0 ≤ p.2)
    (i : Int) : s.positive.amount i = s.amount i := by
  have fresh : s.positive.numbers.Nodup := distinct.sublist ((positive_sublist s).map _)
  by_cases staked : s.amount i = 0
  · by_cases kept : s.positive.amount i = 0
    · rw [staked, kept]
    · have member := mem_positive.1 (mem_of_amount kept)
      have same : s.amount i = s.positive.amount i := amount_of_mem distinct member.1
      omega
  · have member := mem_of_amount staked
    have above := nonneg _ member
    have kept : (i, s.amount i) ∈ s.positive := mem_positive.2 ⟨member, by omega⟩
    exact amount_of_mem fresh kept

theorem total_positive {s : Stakes} (nonneg : ∀ p ∈ s, 0 ≤ p.2) : s.positive.total = s.total := by
  induction s with
  | nil => rfl
  | cons p rest ih =>
    have first := nonneg p List.mem_cons_self
    have others := ih fun q member => nonneg q (List.mem_cons_of_mem p member)
    unfold positive at others ⊢
    rw [List.filter_cons, total_cons]
    by_cases staked : 0 < p.2
    · simp only [staked, decide_true, if_true, total_cons, others]
    · simp only [staked, decide_false, Bool.false_eq_true, if_false, others]
      omega

theorem total_sublist_le {s t : Stakes} (fewer : s.Sublist t) (nonneg : ∀ p ∈ t, 0 ≤ p.2) :
    s.total ≤ t.total := by
  induction fewer with
  | slnil => exact Int.le_refl 0
  | cons p fewer ih =>
    have first := nonneg p List.mem_cons_self
    have others := ih fun q member => nonneg q (List.mem_cons_of_mem p member)
    rw [total_cons]
    omega
  | cons_cons p fewer ih =>
    have others := ih fun q member => nonneg q (List.mem_cons_of_mem p member)
    rw [total_cons, total_cons]
    omega

theorem numbers_append (s t : Stakes) : numbers (s ++ t) = s.numbers ++ t.numbers :=
  List.map_append

theorem total_append (s t : Stakes) : total (s ++ t) = s.total + t.total := by
  rw [total, List.map_append, sumOf_append]
  rfl

theorem amount_append {s t : Stakes} (apart : ∀ i ∈ s.numbers, i ∉ t.numbers) (i : Int) :
    amount (s ++ t) i = s.amount i + t.amount i := by
  induction s with
  | nil => exact (Int.zero_add _).symm
  | cons p rest ih =>
    have others := ih fun j member => apart j (List.mem_cons_of_mem p.1 member)
    rw [List.cons_append, amount_cons, amount_cons, others]
    by_cases same : i = p.1
    · rw [if_pos same, if_pos same, same, amount_of_not_mem (apart p.1 List.mem_cons_self)]
      exact (Int.add_zero _).symm
    · rw [if_neg same, if_neg same]

theorem le_total {s : Stakes} (nonneg : ∀ p ∈ s, 0 ≤ p.2) {p : Int × Int} (member : p ∈ s) :
    p.2 ≤ s.total := by
  have one := total_sublist_le (List.singleton_sublist.2 member) nonneg
  rw [total_cons, total_nil, Int.add_zero] at one
  exact one

theorem Placed.append {s t : Stakes} (left : s.Placed) (right : t.Placed)
    (apart : ∀ i ∈ s.numbers, i ∉ t.numbers) : Placed (s ++ t) := by
  constructor
  · rw [numbers_append, List.nodup_append]
    refine ⟨left.distinct, right.distinct, ?_⟩
    intro i member j other same
    exact apart i member (same ▸ other)
  · intro i member
    rw [numbers_append] at member
    rcases List.mem_append.1 member with first | second
    · exact left.known i first
    · exact right.known i second

theorem Placed.merge {s t : Stakes} (left : s.Placed) (right : t.Placed)
    (apart : ∀ i ∈ s.numbers, i ∉ t.numbers) : s.merge t = s ++ t :=
  merge_fresh (left.append right apart).distinct

theorem amount_merge {s t : Stakes} (left : s.Placed) (right : t.Placed)
    (apart : ∀ i ∈ s.numbers, i ∉ t.numbers) (i : Int) :
    (s.merge t).amount i = s.amount i + t.amount i := by
  rw [left.merge right apart, amount_append apart]

theorem eq_of_amount {s t : Stakes} (left : s.numbers.Pairwise (· < ·))
    (right : t.numbers.Pairwise (· < ·)) (positive : ∀ p ∈ s, 0 < p.2) (positive' : ∀ p ∈ t, 0 < p.2)
    (same : ∀ i, s.amount i = t.amount i) : s = t := by
  have inside : ∀ {u v : Stakes}, u.numbers.Nodup → (∀ p ∈ u, 0 < p.2) →
      (∀ i, u.amount i = v.amount i) → u ⊆ v := by
    intro u v distinct some same p member
    have amount := (same p.1).symm.trans (amount_of_mem distinct member)
    have least := some p member
    have entry := mem_of_amount (s := v) (i := p.1) (by omega)
    rwa [amount] at entry
  exact eq_of_subset left right (inside (left.imp Int.ne_of_lt) positive same)
    (inside (right.imp Int.ne_of_lt) positive' fun i => (same i).symm)

end Stakes
end Parimutuel
