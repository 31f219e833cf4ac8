namespace Parimutuel

-- A finite number is `mantissa * 2 ^ exponent`, with the mantissa below `2 ^ 53`, the exponent at
-- least -1074, and the mantissa at least `2 ^ 52` unless the exponent is -1074.
inductive Binary64 where
  | nan
  | infinite (negative : Bool)
  | finite (negative : Bool) (mantissa : Nat) (exponent : Int)
  deriving Repr, DecidableEq

namespace Binary64

-- The quotient rounded to the nearest integer; halfway the even one is taken.
def roundQuotient (num den : Nat) : Nat :=
  let rest := num % den
  if 2 * rest < den ∨ (2 * rest = den ∧ num / den % 2 = 0) then num / den else num / den + 1

theorem roundQuotient_close (num den : Nat) (positive : 0 < den) :
    2 * num ≤ (2 * roundQuotient num den + 1) * den ∧
      2 * (roundQuotient num den * den) ≤ 2 * num + den := by
  have parts := Nat.div_add_mod' num den
  have small := Nat.mod_lt num positive
  unfold roundQuotient
  simp only
  split
  · rw [Nat.add_mul, Nat.mul_assoc]; omega
  · rw [Nat.add_mul, Nat.mul_assoc, Nat.add_mul]; omega

def scaled (num den : Nat) (exponent : Int) : Nat × Nat :=
  if 0 ≤ exponent then (num, den * Nat.pow 2 exponent.toNat)
  else (num * Nat.pow 2 (-exponent).toNat, den)

-- The least mantissa that needs more than 53 bits.
def overflow : Nat := 9007199254740992

def leastExponent : Int := -1074
def greatestExponent : Int := 971

-- The exponent at which a positive ratio has a mantissa of 53 bits, or the least there is.
def exponentOf (num den : Nat) : Int :=
  let first := (num.log2 : Int) - den.log2 - 53
  let (n, d) := scaled num den first
  max leastExponent (if n / d < overflow then first else first + 1)

-- The nearest number to a ratio; beyond the greatest one lies infinity.
def ofRatio (negative : Bool) (num den : Nat) : Binary64 :=
  if num = 0 then .finite negative 0 leastExponent
  else
    let exponent := exponentOf num den
    let (n, d) := scaled num den exponent
    let mantissa := roundQuotient n d
    let (mantissa, exponent) :=
      if mantissa = overflow then (overflow / 2, exponent + 1) else (mantissa, exponent)
    if greatestExponent < exponent then .infinite negative else .finite negative mantissa exponent

-- The nearest number to `digits * 10 ^ power`. Where the first digit stands far outside the range
-- the power of ten is not worked out.
def ofDecimal (negative : Bool) (digits : Nat) (power : Int) : Binary64 :=
  let place := ((Nat.repr digits).length : Int) + power
  if digits = 0 ∨ place < -400 then .finite negative 0 leastExponent
  else if 400 < place then .infinite negative
  else if 0 ≤ power then ofRatio negative (digits * Nat.pow 10 power.toNat) 1
  else ofRatio negative digits (Nat.pow 10 (-power).toNat)

def ofInt (n : Int) : Binary64 := ofRatio (decide (n < 0)) n.natAbs 1

def ratio (mantissa : Nat) (exponent : Int) : Nat × Nat :=
  if 0 ≤ exponent then (mantissa * Nat.pow 2 exponent.toNat, 1)
  else (mantissa, Nat.pow 2 (-exponent).toNat)

def whole (negative : Bool) (mantissa : Nat) (exponent : Int) : Int :=
  let (num, den) := ratio mantissa exponent
  if negative then -(num / den : Nat) else (num / den : Nat)

def integer? : Binary64 → Option Int
  | .finite negative mantissa exponent =>
    let (num, den) := ratio mantissa exponent
    if num % den = 0 then some (if negative then -(num / den : Nat) else (num / den : Nat))
    else none
  | _ => none

def signed (negative : Bool) (n : Nat) : Int := if negative then -(n : Int) else n

end Binary64
end Parimutuel
