import Parimutuel.Decimal.Binary64

namespace Parimutuel.Binary64

def zero (negative : Bool) : Binary64 := .finite negative 0 leastExponent

def one : Binary64 := ofInt 1

def half : Binary64 := ofRatio false 1 2

def signBit : Binary64 → Bool
  | .nan => false
  | .infinite negative => negative
  | .finite negative _ _ => negative

def isZero : Binary64 → Bool
  | .finite _ mantissa _ => mantissa == 0
  | _ => false

def isInfinite : Binary64 → Bool
  | .infinite _ => true
  | _ => false

def isNegative (x : Binary64) : Bool := x.signBit && !x.isZero

def isPositive : Binary64 → Bool
  | .nan => false
  | x => !x.signBit && !x.isZero

def negate : Binary64 → Binary64
  | .nan => .nan
  | .infinite negative => .infinite (!negative)
  | .finite negative mantissa exponent => .finite (!negative) mantissa exponent

-- The nearest number to `n * 2 ^ exponent`; a zero takes the sign that is given for it.
def ofScaled (zeroSign : Bool) (n exponent : Int) : Binary64 :=
  if n = 0 then zero zeroSign
  else
    let (num, den) := ratio n.natAbs exponent
    ofRatio (decide (n < 0)) num den

-- `n * 2 ^ exponent` in units of a smaller power of two.
def inUnits (n exponent unit : Int) : Int := n * Nat.pow 2 (exponent - unit).toNat

-- Opposite numbers cancel out to the positive zero.
def add : Binary64 → Binary64 → Binary64
  | .nan, _ => .nan
  | _, .nan => .nan
  | .infinite a, .infinite b => if a = b then .infinite a else .nan
  | .infinite a, _ => .infinite a
  | _, .infinite b => .infinite b
  | .finite a m e, .finite b n f =>
    let unit := min e f
    ofScaled (a && b) (inUnits (signed a m) e unit + inUnits (signed b n) f unit) unit

def subtract (x y : Binary64) : Binary64 := add x (negate y)

def multiply : Binary64 → Binary64 → Binary64
  | .nan, _ => .nan
  | _, .nan => .nan
  | .finite a m e, .finite b n f => ofScaled (a != b) (signed (a != b) (m * n)) (e + f)
  | x, y => if x.isZero || y.isZero then .nan else .infinite (x.signBit != y.signBit)

-- A zero as divisor is left to the caller.
def divide : Binary64 → Binary64 → Binary64
  | .nan, _ => .nan
  | _, .nan => .nan
  | .infinite _, .infinite _ => .nan
  | .infinite a, y => .infinite (a != y.signBit)
  | x, .infinite b => zero (x.signBit != b)
  | .finite a m e, .finite b n f =>
    let (num, den) := ratio m (e - f)
    ofRatio (a != b) num (den * n)

-- What is left of the dividend when the divisor is taken away from it as often as it goes, with
-- the dividend's sign.
def remainder : Binary64 → Binary64 → Binary64
  | .nan, _ => .nan
  | _, .nan => .nan
  | .infinite _, _ => .nan
  | x, .infinite _ => x
  | .finite a m e, .finite _ n f =>
    let unit := min e f
    let rest := m * Nat.pow 2 (e - unit).toNat % (n * Nat.pow 2 (f - unit).toNat)
    ofScaled a (signed a rest) unit

def floor : Binary64 → Binary64
  | .finite negative mantissa exponent =>
    let (num, den) := ratio mantissa exponent
    ofScaled negative ((signed negative num).fdiv den) 0
  | x => x

def compareScaled (a e b f : Int) : Ordering :=
  compare (inUnits a e (min e f)) (inUnits b f (min e f))

def compare? : Binary64 → Binary64 → Option Ordering
  | .nan, _ => none
  | _, .nan => none
  | .infinite a, .infinite b => some (if a = b then .eq else if a then .lt else .gt)
  | .infinite a, _ => some (if a then .lt else .gt)
  | _, .infinite b => some (if b then .gt else .lt)
  | .finite a m e, .finite b n f => some (compareScaled (signed a m) e (signed b n) f)

-- The same against an integer, which need not be such a number.
def compareInt? (n : Int) : Binary64 → Option Ordering
  | .nan => none
  | .infinite negative => some (if negative then .gt else .lt)
  | .finite negative mantissa exponent => some (compareScaled n 0 (signed negative mantissa) exponent)

-- The quotient is taken without the remainder, so that it comes out next to an integer, and goes
-- to that integer; a remainder with the wrong sign belongs to the quotient below.
def floorDivide (x y : Binary64) : Binary64 :=
  let rest := remainder x y
  let exact := divide (subtract x rest) y
  let quotient :=
    if !rest.isZero && y.isNegative != rest.isNegative then subtract exact one else exact
  if quotient.isZero then zero (x.signBit != y.signBit)
  else
    let below := floor quotient
    if compare? (subtract quotient below) half = some .gt then add below one else below

end Parimutuel.Binary64
