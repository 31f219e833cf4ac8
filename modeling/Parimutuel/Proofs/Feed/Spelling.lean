import Mathlib.Algebra.Order.Field.Power
import Mathlib.Algebra.Order.Field.Rat
import Mathlib.Data.Int.CharZero
import Parimutuel.Feed
import Parimutuel.Proofs.Text.Numeral

namespace Parimutuel

namespace Binary64

-- What a finite number is worth, exactly.
def value? : Binary64 → Option ℚ
  | .finite negative mantissa exponent =>
    some ((if negative then -1 else 1) * (mantissa * (2 : ℚ) ^ exponent))
  | _ => none

theorem ratio_value (mantissa : Nat) (exponent : Int) :
    0 < (ratio mantissa exponent).2 ∧
      ((ratio mantissa exponent).1 : ℚ) = mantissa * (2 : ℚ) ^ exponent * (ratio mantissa exponent).2 := by
  unfold ratio
  split
  · rename_i high
    obtain ⟨k, rfl⟩ := Int.eq_ofNat_of_zero_le high
    exact ⟨Nat.one_pos, by simp⟩
  · rename_i low
    obtain ⟨k, rfl⟩ : ∃ k : Nat, exponent = -(k : Int) := ⟨(-exponent).toNat, by omega⟩
    exact ⟨Nat.pow_pos (by decide), by simp⟩

theorem divides_of_value {num den : Nat} {k : Int} (exact : (num : ℚ) = k * den) : num % den = 0 := by
  have whole : (num : Int) = k * den := by exact_mod_cast exact
  exact Nat.mod_eq_zero_of_dvd (Int.natCast_dvd_natCast.1 ⟨k, by rw [whole, Int.mul_comm]⟩)

theorem integer?_eq_some_iff {x : Binary64} {n : Int} :
    x.integer? = some n ↔ x.value? = some (n : ℚ) := by
  cases x with
  | nan => simp [integer?, value?]
  | infinite => simp [integer?, value?]
  | finite negative mantissa exponent =>
    obtain ⟨positive, exact⟩ := ratio_value mantissa exponent
    simp only [integer?, value?, Option.some.injEq]
    generalize (mantissa : ℚ) * 2 ^ exponent = size at exact
    generalize (ratio mantissa exponent).1 = num at exact
    generalize (ratio mantissa exponent).2 = den at positive exact
    by_cases divides : num % den = 0
    · obtain ⟨k, rfl⟩ := Nat.dvd_of_mod_eq_zero divides
      have same : size = k := by
        have nonzero : (den : ℚ) ≠ 0 := Nat.cast_ne_zero.2 (Nat.ne_of_gt positive)
        rw [Nat.cast_mul, mul_comm] at exact
        exact (mul_right_cancel₀ nonzero exact).symm
      rw [if_pos divides, Option.some.injEq, Nat.mul_div_cancel_left k positive, same]
      cases negative
      · simp only [Bool.false_eq_true, if_false, one_mul]
        rw [← Int.cast_inj (α := ℚ), Int.cast_natCast]
      · simp only [if_true, neg_one_mul]
        rw [← Int.cast_inj (α := ℚ), Int.cast_neg, Int.cast_natCast]
    · rw [if_neg divides]
      refine iff_of_false (fun none => by cases none) fun worth => divides ?_
      cases negative
      · simp only [Bool.false_eq_true, if_false, one_mul] at worth
        rw [worth] at exact
        exact divides_of_value exact
      · simp only [if_true, neg_one_mul] at worth
        rw [← neg_neg size, worth] at exact
        exact divides_of_value (k := -n) (by rw [exact, Int.cast_neg])

end Binary64

-- The integer that a value spells: itself, a whole fraction, or text. Truth values spell none.
inductive Json.Denotes : Json → Int → Prop where
  | int (n : Int) : Denotes (.int n) n
  | real {x : Binary64} {n : Int} (whole : x.value? = some (n : ℚ)) : Denotes (.real x) n
  | text {t : Text} {n : Int} (numeral : Text.Numeral (Text.strip t) n) : Denotes (.text t) n

-- A truth value, or one of eight words in any letters and with white space around it.
inductive Json.Tells : Json → Bool → Prop where
  | bool (b : Bool) : Tells (.bool b) b
  | yes {t : Text} (word : Text.lowerAscii (Text.strip t) ∈ ["1", "true", "yes", "on"].map Text.ofString) :
      Tells (.text t) true
  | no {t : Text} (word : Text.lowerAscii (Text.strip t) ∈ ["0", "false", "no", "off"].map Text.ofString) :
      Tells (.text t) false

namespace Feed

variable {room : Nat}

theorem integer?_eq_ok_iff {field : String} {value : Json} {n : Int} :
    integer? room field value = .ok n ↔ value.Denotes n := by
  constructor
  · intro read
    cases value with
    | int => cases read; exact .int n
    | real x =>
      simp only [integer?] at read
      split at read
      · rename_i whole
        cases read
        exact .real (Binary64.integer?_eq_some_iff.1 whole)
      · cases read
    | text t =>
      simp only [integer?] at read
      split at read
      · rename_i numeral
        cases read
        exact .text (Text.integer?_eq_ok_iff.1 numeral)
      · cases read
    | _ => cases read
  · intro denotes
    cases denotes with
    | int => rfl
    | real whole => simp only [integer?, Binary64.integer?_eq_some_iff.2 whole]
    | text numeral => simp only [integer?, Text.integer?_eq_ok_iff.2 numeral]

theorem integers?_eq_ok_iff {field : String} {i : Nat} {items : List Json} {row : List Int} :
    integers? room field i items = .ok row ↔ List.Forall₂ Json.Denotes items row := by
  constructor
  · intro read
    induction items generalizing i row with
    | nil => cases read; exact .nil
    | cons value rest ih =>
      obtain ⟨n, first, read⟩ := bind_ok read
      obtain ⟨others, more, read⟩ := bind_ok read
      cases read
      exact .cons (integer?_eq_ok_iff.1 first) (ih more)
  · intro each
    induction each generalizing i with
    | nil => rfl
    | cons first _ ih => rw [integers?, integer?_eq_ok_iff.2 first, ih]; rfl

inductive Listed : Json → List Int → Prop where
  | items {items : List Json} {row : List Int} (each : List.Forall₂ Json.Denotes items row) :
      Listed (.list items) row

-- An object counts as a row as well: that of its names.
inductive Row : Json → List Int → Prop where
  | listed {value : Json} {row : List Int} (listed : Listed value row) : Row value row
  | names {members : List (Text × Json)} {row : List Int}
      (each : List.Forall₂ Json.Denotes (members.map fun m => .text m.1) row) : Row (.object members) row

theorem row?_eq_ok_iff {field : String} {value : Json} {row : List Int} :
    row? room field value = .ok row ↔ Row value row := by
  constructor
  · intro read
    cases value with
    | list items => exact .listed (.items (integers?_eq_ok_iff.1 read))
    | object members => exact .names (integers?_eq_ok_iff.1 read)
    | _ => cases read
  · rintro (⟨⟨each⟩⟩ | each)
    · exact integers?_eq_ok_iff.2 each
    · exact integers?_eq_ok_iff.2 each

theorem flag?_eq_ok_iff {field : String} {value : Json} {b : Bool} :
    flag? room field value = .ok b ↔ value.Tells b := by
  constructor
  · intro read
    cases value with
    | bool => cases read; exact .bool b
    | text t =>
      simp only [flag?] at read
      split at read
      · rename_i word
        cases read
        exact .yes (List.contains_iff_mem.1 word)
      · split at read
        · rename_i word
          cases read
          exact .no (List.contains_iff_mem.1 word)
        · cases read
    | _ => cases read
  · intro told
    cases told with
    | bool => rfl
    | yes word => simp only [flag?, trueWords, List.contains_iff_mem.2 word, if_true]
    | no word =>
      have other : ∀ w ∈ falseWords, trueWords.contains w = false := by decide
      simp only [flag?, other _ word, falseWords, List.contains_iff_mem.2 word, Bool.false_eq_true, if_false,
        if_true]

end Feed
end Parimutuel
