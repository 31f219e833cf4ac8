import Mathlib.Tactic.FieldSimp
import Mathlib.Tactic.Linarith
import Mathlib.Tactic.Positivity
import Mathlib.Tactic.Ring
import Parimutuel.Proofs.Feed.Spelling

namespace Parimutuel.Binary64

theorem scaled_ratio (num : Nat) {den : Nat} (positive : 0 < den) (exponent : Int) :
    0 < (scaled num den exponent).2 ∧
      ((scaled num den exponent).1 : ℚ) / (scaled num den exponent).2 * (2 : ℚ) ^ exponent = num / den := by
  have nonzero : (den : ℚ) ≠ 0 := Nat.cast_ne_zero.2 (Nat.ne_of_gt positive)
  unfold scaled
  split
  · rename_i high
    obtain ⟨k, rfl⟩ := Int.eq_ofNat_of_zero_le high
    refine ⟨Nat.mul_pos positive (Nat.pow_pos (by decide)), ?_⟩
    simp only [Int.toNat_natCast, Nat.pow_eq, Nat.cast_mul, Nat.cast_pow, Nat.cast_ofNat, zpow_natCast]
    field_simp
  · rename_i low
    obtain ⟨k, rfl⟩ : ∃ k : Nat, exponent = -(k : Int) := ⟨(-exponent).toNat, by omega⟩
    refine ⟨positive, ?_⟩
    simp only [neg_neg, Int.toNat_natCast, Nat.pow_eq, Nat.cast_mul, Nat.cast_pow, Nat.cast_ofNat, zpow_neg,
      zpow_natCast]
    field_simp

theorem roundQuotient_le (num : Nat) {den : Nat} (positive : 0 < den) :
    (roundQuotient num den : ℚ) ≤ num / den + 1 := by
  have close := (roundQuotient_close num den positive).2
  have bound : roundQuotient num den * den ≤ num + den := by omega
  have size : (0 : ℚ) < den := Nat.cast_pos.2 positive
  rw [← sub_le_iff_le_add, le_div_iff₀ size, sub_mul, one_mul, sub_le_iff_le_add]
  exact_mod_cast bound

theorem abs_value {negative : Bool} {mantissa : Nat} {exponent : Int} {x : ℚ}
    (known : (finite negative mantissa exponent).value? = some x) : |x| = mantissa * (2 : ℚ) ^ exponent := by
  have size : (0 : ℚ) ≤ mantissa * (2 : ℚ) ^ exponent := by positivity
  simp only [value?, Option.some.injEq] at known
  rw [← known, abs_mul, abs_of_nonneg size]
  cases negative <;> simp

-- A mantissa that is one bit too long is halved, which leaves the number as it is.
theorem ofRatio_le {negative : Bool} {num den : Nat} (positive : 0 < den) {x : ℚ}
    (known : (ofRatio negative num den).value? = some x) : |x| ≤ num / den + 2 ^ 971 := by
  have ratio : (0 : ℚ) ≤ num / den := by positivity
  unfold ofRatio at known
  split at known
  · rw [abs_value known, Nat.cast_zero, zero_mul]
    positivity
  · obtain ⟨e, best⟩ : ∃ e, exponentOf num den = e := ⟨_, rfl⟩
    rw [best] at known
    obtain ⟨size, exact⟩ := scaled_ratio num positive e
    have unit : (0 : ℚ) < (2 : ℚ) ^ e := by positivity
    have rounded : (roundQuotient (scaled num den e).1 (scaled num den e).2 : ℚ) * (2 : ℚ) ^ e ≤
        num / den + (2 : ℚ) ^ e := by
      have least := mul_le_mul_of_nonneg_right (roundQuotient_le (scaled num den e).1 size) (le_of_lt unit)
      rwa [add_mul, exact, one_mul] at least
    have bounded (within : e ≤ 971) : num / den + (2 : ℚ) ^ e ≤ num / den + 2 ^ 971 := by
      have order : (2 : ℚ) ^ e ≤ (2 : ℚ) ^ (971 : Int) := zpow_le_zpow_right₀ (by norm_num) within
      exact add_le_add_right (by exact_mod_cast order) _
    simp only at known
    split at known
    · rename_i long
      split at known
      · cases known
      · rename_i within
        have half : ((overflow / 2 : Nat) : ℚ) * (2 : ℚ) ^ (e + 1) = overflow * (2 : ℚ) ^ e := by
          rw [zpow_add_one₀ (by norm_num)]
          norm_num [overflow]
          ring
        rw [abs_value known, half, ← long]
        exact rounded.trans (bounded (by simp only [greatestExponent] at within; omega))
    · split at known
      · cases known
      · rename_i within
        rw [abs_value known]
        exact rounded.trans (bounded (by simp only [greatestExponent] at within; omega))

theorem lt_pow_length (n : Nat) : n < 10 ^ (Nat.repr n).length := by
  rw [Nat.repr_eq_ofList_toDigits, String.length_ofList,
    ← Nat.length_toDigits_le_iff (by decide) Nat.length_toDigits_pos]

theorem sum_lt_pow (a b : Nat) : 10 ^ a + 2 ^ b < 10 ^ (a + b + 1) := by
  have left : 10 ^ a ≤ 10 ^ (a + b) := Nat.pow_le_pow_right (by decide) (Nat.le_add_right a b)
  have right : 2 ^ b ≤ 10 ^ (a + b) :=
    (Nat.pow_le_pow_left (by decide) b).trans (Nat.pow_le_pow_right (by decide) (Nat.le_add_left b a))
  have unit : 0 < 10 ^ (a + b) := Nat.pow_pos (by decide)
  rw [Nat.pow_succ]
  omega

-- As a whole number nothing that was read from decimal digits is long, whatever its power of ten.
theorem ofDecimal_brief {negative : Bool} {digits : Nat} {power n : Int}
    (known : (ofDecimal negative digits power).integer? = some n) : Text.Brief n := by
  rw [integer?_eq_some_iff] at known
  have size : |(n : ℚ)| ≤ 10 ^ 400 + 2 ^ 971 := by
    unfold ofDecimal at known
    simp only at known
    split at known
    · rw [abs_value known, Nat.cast_zero, zero_mul]
      positivity
    split at known
    · cases known
    rename_i low high
    have few : (digits : ℚ) < 10 ^ (Nat.repr digits).length := by exact_mod_cast lt_pow_length digits
    split at known
    · rename_i up
      obtain ⟨p, rfl⟩ := Int.eq_ofNat_of_zero_le up
      refine (ofRatio_le Nat.one_pos known).trans (add_le_add_left ?_ _)
      have order : (10 : ℚ) ^ ((Nat.repr digits).length + p) ≤ 10 ^ 400 :=
        pow_le_pow_right₀ (by norm_num) (by omega)
      rw [pow_add] at order
      have more := mul_le_mul_of_nonneg_right few.le (show (0 : ℚ) ≤ 10 ^ p by positivity)
      simpa using more.trans order
    · rename_i down
      obtain ⟨q, rfl⟩ : ∃ q : Nat, power = -(q : Int) := ⟨(-power).toNat, by omega⟩
      refine (ofRatio_le (Nat.pow_pos (by decide)) known).trans (add_le_add_left ?_ _)
      have order : (10 : ℚ) ^ (Nat.repr digits).length ≤ 10 ^ (400 + q) :=
        pow_le_pow_right₀ (by norm_num) (by omega)
      rw [pow_add] at order
      rw [div_le_iff₀ (by simp)]
      simpa using few.le.trans order
  obtain ⟨a, b, short, size⟩ : ∃ a b : Nat, a + b + 1 ≤ Text.digitLimit ∧ |(n : ℚ)| ≤ 10 ^ a + 2 ^ b :=
    ⟨400, 971, by decide, size⟩
  have whole : n.natAbs ≤ 10 ^ a + 2 ^ b := by
    rw [← Int.cast_abs, Int.abs_eq_natAbs] at size
    exact_mod_cast size
  exact Text.lt_pow_of_le (Nat.lt_of_le_of_lt whole (sum_lt_pow a b)) short

end Parimutuel.Binary64
