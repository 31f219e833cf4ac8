import Parimutuel.Unchecked.Entries

namespace Parimutuel.Entries

def Ascending (s : Stakes) : Prop := s.Pairwise fun p q => p.1 ≤ q.1

theorem Ascending.le {s : Stakes} (ascending : Ascending s) {j k : Nat} (order : j ≤ k)
    (inside : k < s.length) : s[j].1 ≤ s[k].1 := by
  rcases Nat.lt_or_eq_of_le order with before | rfl
  · exact List.pairwise_iff_getElem.1 ascending j k (Nat.lt_trans before inside) inside before
  · exact Int.le_refl _

theorem getD_stakes {s : Stakes} {k : Nat} (inside : k < s.length) :
    ((s.map ofStake).getD k (.null, .null)).1 = .int s[k].1 := by
  simp [List.getD_eq_getElem?_getD, inside, ofStake]

theorem relate?_less_int (a b : Int) :
    Json.relate? .less (.int a) (.int b) = .ok (decide (a < b)) := rfl

-- A place between the keys that are not greater and those that are.
def Between (s : Stakes) (i : Int) (place : Nat) : Prop :=
  (∀ j (inside : j < s.length), j < place → s[j].1 ≤ i) ∧
    (∀ j (inside : j < s.length), place ≤ j → i < s[j].1)

theorem place?_stakes {s : Stakes} (ascending : Ascending s) (i : Int) (low high : Nat)
    (order : low ≤ high) (fits : high ≤ s.length)
    (before : ∀ j (inside : j < s.length), j < low → s[j].1 ≤ i)
    (after : ∀ j (inside : j < s.length), high ≤ j → i < s[j].1) :
    ∃ place, place? (s.map ofStake) (.int i) low high = .ok place ∧ place ≤ s.length ∧
      Between s i place := by
  by_cases wide : low < high
  · have inside : low + (high - low) / 2 < s.length := by omega
    unfold place?
    rw [if_pos wide, getD_stakes inside, relate?_less_int]
    by_cases smaller : i < s[low + (high - low) / 2].1
    · simp only [smaller, decide_true]
      apply place?_stakes ascending i low (low + (high - low) / 2) (by omega) (by omega) before
      intro j within above
      exact Int.lt_of_lt_of_le smaller (ascending.le above within)
    · simp only [smaller, decide_false]
      apply place?_stakes ascending i (low + (high - low) / 2 + 1) high (by omega) fits _ after
      intro j within below
      have := ascending.le (show j ≤ low + (high - low) / 2 by omega) inside
      omega
  · have same : low = high := by omega
    subst same
    unfold place?
    rw [if_neg wide]
    exact ⟨low, rfl, fits, before, after⟩
termination_by high - low

theorem insert?_stakes {s : Stakes} (ascending : Ascending s) (p : Int × Int) :
    ∃ t, insert? (s.map ofStake) (ofStake p) = .ok (t.map ofStake) ∧ Ascending t ∧
      t.Perm (p :: s) := by
  obtain ⟨place, found, fits, before, after⟩ := place?_stakes ascending p.1 0 s.length
    (Nat.zero_le _) (Nat.le_refl _) (fun _ _ small => absurd small (Nat.not_lt_zero _))
    (fun _ inside large => absurd inside (Nat.not_lt.2 large))
  refine ⟨s.take place ++ p :: s.drop place, ?_, ?_, ?_⟩
  · have key : (ofStake p).1 = .int p.1 := rfl
    simp only [insert?, List.length_map, key, found, bind, Except.bind, pure, Except.pure,
      List.map_append, List.map_cons, List.map_take, List.map_drop]
  · unfold Ascending
    rw [List.pairwise_append, List.pairwise_cons]
    refine ⟨ascending.take, ⟨?_, ascending.drop⟩, ?_⟩
    · intro q member
      obtain ⟨j, inside, rfl⟩ := List.mem_iff_getElem.1 member
      rw [List.getElem_drop]
      rw [List.length_drop] at inside
      exact Int.le_of_lt (after (place + j) (by omega) (by omega))
    · intro q member r other
      obtain ⟨j, inside, rfl⟩ := List.mem_iff_getElem.1 member
      rw [List.getElem_take]
      rw [List.length_take] at inside
      have first := before j (by omega) (by omega)
      rcases List.mem_cons.1 other with rfl | later
      · exact first
      · obtain ⟨k, within, rfl⟩ := List.mem_iff_getElem.1 later
        rw [List.getElem_drop]
        rw [List.length_drop] at within
        exact Int.le_trans first (Int.le_of_lt (after (place + k) (by omega) (by omega)))
  · have whole := List.take_append_drop place s
    exact List.perm_middle.trans (by rw [whole])

theorem foldlM_insert?_stakes (rest : Stakes) {s : Stakes} (ascending : Ascending s) :
    ∃ t, (rest.map ofStake).foldlM insert? (s.map ofStake) = .ok (t.map ofStake) ∧ Ascending t ∧
      t.Perm (s ++ rest) := by
  induction rest generalizing s with
  | nil => exact ⟨s, rfl, ascending, by simp⟩
  | cons p rest ih =>
    obtain ⟨next, inserted, sorted, perm⟩ := insert?_stakes ascending p
    obtain ⟨t, run, final, whole⟩ := ih sorted
    refine ⟨t, ?_, final, ?_⟩
    · rw [List.map_cons, List.foldlM_cons, inserted]
      exact run
    · exact whole.trans ((perm.append_right rest).trans List.perm_middle.symm)

-- Going down is strict, going up is not.
def Sloping (down : Bool) (s : Stakes) : Prop :=
  s.Pairwise fun p q => if down then q.1 < p.1 else p.1 ≤ q.1

theorem sloping_cons {down : Bool} {p q : Int × Int} {s : Stakes}
    (step : decide (q.1 < p.1) = down) (rest : Sloping down (q :: s)) :
    Sloping down (p :: q :: s) := by
  unfold Sloping at rest ⊢
  rw [List.pairwise_cons]
  refine ⟨?_, rest⟩
  rw [List.pairwise_cons] at rest
  intro r member
  rcases List.mem_cons.1 member with rfl | later
  · cases down <;> simp_all
  · have next := rest.1 r later
    cases down <;> simp_all <;> omega

theorem slope?_stakes (down : Bool) (last : Int × Int) (s : Stakes) :
    ∃ more left, slope? down (ofStake last) (s.map ofStake) =
        .ok (more.map ofStake, left.map ofStake) ∧ more ++ left = s ∧
      Sloping down (last :: more) := by
  induction s generalizing last with
  | nil => exact ⟨[], [], rfl, rfl, List.pairwise_singleton _ _⟩
  | cons next rest ih =>
    have compared : Json.relate? .less (ofStake next).1 (ofStake last).1 =
        .ok (decide (next.1 < last.1)) := rfl
    simp only [List.map_cons, slope?, compared, bind, Except.bind]
    by_cases step : decide (next.1 < last.1) = down
    · obtain ⟨more, left, run, parts, sloping⟩ := ih next
      refine ⟨next :: more, left, ?_, by simp [parts], sloping_cons step sloping⟩
      rw [if_pos step, run]
      rfl
    · refine ⟨[], next :: rest, ?_, rfl, List.pairwise_singleton _ _⟩
      rw [if_neg step]
      rfl

theorem ascending_of_sloping {down : Bool} {s : Stakes} (sloping : Sloping down s) :
    Ascending (if down then s.reverse else s) := by
  cases down with
  | true =>
    simp only [if_true]
    unfold Ascending
    rw [List.pairwise_reverse]
    exact List.Pairwise.imp (fun {_ _} h => Int.le_of_lt (by simpa using h)) sloping
  | false => exact List.Pairwise.imp (fun {_ _} h => by simpa using h) sloping

theorem sorted?_ascending (s : Stakes) :
    ∃ t, sorted? (s.map ofStake) = .ok (t.map ofStake) ∧ Ascending t ∧ t.Perm s := by
  match s with
  | [] => exact ⟨[], rfl, List.Pairwise.nil, .refl _⟩
  | [p] => exact ⟨[p], rfl, List.pairwise_singleton _ _, .refl _⟩
  | first :: second :: rest =>
    have compared : Json.relate? .less (ofStake second).1 (ofStake first).1 =
        .ok (decide (second.1 < first.1)) := rfl
    obtain ⟨more, left, run, parts, sloping⟩ :=
      slope?_stakes (decide (second.1 < first.1)) second rest
    have front := ascending_of_sloping (sloping_cons rfl sloping)
    obtain ⟨t, folded, ascending, perm⟩ := foldlM_insert?_stakes left front
    refine ⟨t, ?_, ascending, perm.trans ?_⟩
    · simp only [List.map_cons, sorted?, compared, run, bind, Except.bind]
      rw [← folded]
      cases decide (second.1 < first.1) <;> simp
    · subst parts
      cases decide (second.1 < first.1) with
      | true => exact ((List.reverse_perm _).append_right left).trans (by simp)
      | false => simp

theorem sorted_ascending (s : Stakes) : Ascending s.sorted := by
  have sorted : s.sorted.Pairwise fun p q => decide (p.1 ≤ q.1) = true :=
    List.pairwise_mergeSort
      (fun _ _ _ first second => by simp only [decide_eq_true_eq] at *; omega)
      (fun _ _ => by simp only [Bool.or_eq_true, decide_eq_true_eq]; omega) s
  exact List.Pairwise.imp (fun {_ _} h => by simpa using h) sorted

theorem eq_of_numbers_nodup {s : Stakes} (distinct : s.numbers.Nodup) {p q : Int × Int}
    (left : p ∈ s) (right : q ∈ s) (same : p.1 = q.1) : p = q := by
  induction s with
  | nil => cases left
  | cons head rest ih =>
    simp only [Stakes.numbers, List.map_cons, List.nodup_cons, List.mem_map] at distinct
    rcases List.mem_cons.1 left with first | inside <;> rcases List.mem_cons.1 right with second | within
    · rw [first, second]
    · subst first
      exact absurd ⟨q, within, same.symm⟩ distinct.1
    · subst second
      exact absurd ⟨p, inside, same⟩ distinct.1
    · exact ih distinct.2 inside within

theorem eq_sorted {s t : Stakes} (distinct : s.numbers.Nodup) (ascending : Ascending t)
    (perm : t.Perm s) : t = s.sorted := by
  have sorted : s.sorted.Perm s := List.mergeSort_perm s _
  refine List.Perm.eq_of_pairwise ?_ ascending (sorted_ascending s) (perm.trans sorted.symm)
  intro p q left right low high
  exact eq_of_numbers_nodup distinct (perm.mem_iff.1 left) (sorted.mem_iff.1 right)
    (Int.le_antisymm low high)

theorem sorted?_stakes {s : Stakes} (distinct : s.numbers.Nodup) :
    sorted? (s.map ofStake) = .ok (s.sorted.map ofStake) := by
  obtain ⟨t, run, ascending, perm⟩ := sorted?_ascending s
  rw [run, eq_sorted distinct ascending perm]

end Parimutuel.Entries
