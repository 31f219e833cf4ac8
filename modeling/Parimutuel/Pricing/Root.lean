namespace Parimutuel

-- Each step halves the distance to the root; the first one that does not go down has arrived.
def floorRootFrom (n guess : Nat) : Nat :=
  if (guess + n / guess) / 2 < guess then floorRootFrom n ((guess + n / guess) / 2) else guess
termination_by guess

-- The first guess is a power of two above the root.
def floorRoot (n : Nat) : Nat := floorRootFrom n (Nat.pow 2 (n.log2 / 2 + 1))

theorem floorRootFrom_sq_le (n guess : Nat) :
    floorRootFrom n guess * floorRootFrom n guess ≤ n := by
  fun_induction floorRootFrom n guess with
  | case1 _ _ ih => exact ih
  | case2 guess arrived =>
    rcases Nat.eq_zero_or_pos guess with rfl | positive
    · simp
    · exact (Nat.le_div_iff_mul_le positive).1 (by omega)

theorem four_mul_le_add_sq (a b : Nat) : 4 * (a * b) ≤ (a + b) * (a + b) := by
  rcases Nat.le_total a b with h | h <;> obtain ⟨d, rfl⟩ := Nat.exists_eq_add_of_le h <;> grind

theorem lt_succ_step_sq (n guess : Nat) (positive : 0 < guess) :
    n < ((guess + n / guess) / 2 + 1) * ((guess + n / guess) / 2 + 1) := by
  have split : n < guess * (n / guess + 1) := Nat.lt_mul_div_succ n positive
  generalize n / guess = q at *
  have mean := four_mul_le_add_sq guess (q + 1)
  have twice : guess + (q + 1) ≤ 2 * ((guess + q) / 2 + 1) := by omega
  generalize (guess + q) / 2 = next at *
  have square := Nat.mul_le_mul twice twice
  have regroup : 2 * (next + 1) * (2 * (next + 1)) = 4 * ((next + 1) * (next + 1)) := by grind
  omega

theorem lt_succ_floorRootFrom_sq (n guess : Nat) (above : n < (guess + 1) * (guess + 1)) :
    n < (floorRootFrom n guess + 1) * (floorRootFrom n guess + 1) := by
  fun_induction floorRootFrom n guess with
  | case1 guess smaller ih => exact ih (lt_succ_step_sq n guess (Nat.zero_lt_of_lt smaller))
  | case2 => exact above

theorem floorRoot_sq_le (n : Nat) : floorRoot n * floorRoot n ≤ n :=
  floorRootFrom_sq_le n _

theorem lt_succ_floorRoot_sq (n : Nat) : n < (floorRoot n + 1) * (floorRoot n + 1) := by
  apply lt_succ_floorRootFrom_sq n _
  have bits : n < 2 ^ (n.log2 + 1) := Nat.lt_log2_self
  have room : 2 ^ (n.log2 + 1) ≤ 2 ^ (n.log2 / 2 + 1) * 2 ^ (n.log2 / 2 + 1) := by
    rw [← Nat.pow_add]
    exact Nat.pow_le_pow_right (by decide) (by omega)
  have wider : 2 ^ (n.log2 / 2 + 1) * 2 ^ (n.log2 / 2 + 1) ≤
      (2 ^ (n.log2 / 2 + 1) + 1) * (2 ^ (n.log2 / 2 + 1) + 1) :=
    Nat.mul_le_mul (Nat.le_succ _) (Nat.le_succ _)
  exact Nat.lt_of_lt_of_le (Nat.lt_of_lt_of_le bits room) wider

end Parimutuel
