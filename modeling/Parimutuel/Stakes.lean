import Parimutuel.Basic

namespace Parimutuel

abbrev Stakes := List (Int × Int)

namespace Stakes

def numbers (s : Stakes) : List Int := s.map Prod.fst

def total (s : Stakes) : Int := sumOf (s.map Prod.snd)

-- A number that is already there keeps its place and takes the new amount.
def put : Stakes → Int → Int → Stakes
  | [], i, x => [(i, x)]
  | (j, y) :: rest, i, x => if j = i then (i, x) :: rest else (j, y) :: put rest i x

-- The last amount given for a number holds.
def ofPairs (pairs : List (Int × Int)) : Stakes := pairs.foldl (fun s p => s.put p.1 p.2) []

def merge (s t : Stakes) : Stakes := t.foldl (fun s p => s.put p.1 p.2) s

def sorted (s : Stakes) : Stakes := s.mergeSort (fun p q => decide (p.1 ≤ q.1))

def amount (s : Stakes) (i : Int) : Int := (s.lookup i).getD 0

@[simp] theorem total_nil : total [] = 0 := rfl

@[simp] theorem total_cons (p : Int × Int) (s : Stakes) : total (p :: s) = p.2 + s.total := by
  rfl

theorem mem_numbers_put (s : Stakes) (i x j : Int) :
    j ∈ (s.put i x).numbers ↔ j = i ∨ j ∈ s.numbers := by
  induction s with
  | nil => simp [put, numbers]
  | cons head rest ih =>
    obtain ⟨k, y⟩ := head
    by_cases hk : k = i
    · subst hk; simp [put, numbers]
    · have := ih
      simp only [numbers] at this
      simp only [put, hk, numbers, if_false, List.map_cons, List.mem_cons, this]
      grind

theorem put_nodup (s : Stakes) (i x : Int) (h : s.numbers.Nodup) : (s.put i x).numbers.Nodup := by
  induction s with
  | nil => simp [put, numbers]
  | cons head rest ih =>
    obtain ⟨k, y⟩ := head
    simp only [numbers, List.map_cons, List.nodup_cons] at h
    by_cases hk : k = i
    · subst hk; simpa [put, numbers] using h
    · have fresh : k ∉ (put rest i x).numbers := by
        intro member
        rcases (mem_numbers_put rest i x k).1 member with same | old
        · exact hk same
        · exact h.1 old
      simp only [put, hk, if_false, numbers, List.map_cons, List.nodup_cons]
      exact ⟨fresh, ih h.2⟩

theorem merge_nodup (t : List (Int × Int)) (s : Stakes) (h : s.numbers.Nodup) :
    (merge s t).numbers.Nodup := by
  induction t generalizing s with
  | nil => exact h
  | cons p rest ih => exact ih _ (put_nodup s p.1 p.2 h)

end Stakes
end Parimutuel
