import Parimutuel.Decimal.Binary64

namespace Parimutuel.Decimal

-- `digits * 10 ^ power`.
structure Digits where
  digits : Nat
  power : Int
  deriving Repr, DecidableEq

-- The place of the first digit of a positive ratio: 0 for the units.
def leadingPlace (num den : Nat) : Int :=
  if den ≤ num then (Nat.repr (num / den)).length - 1
  else -((Nat.repr ((den + num - 1) / num - 1)).length : Int)

def readsBack (x : Binary64) (d : Digits) : Bool :=
  Binary64.ofDecimal false d.digits d.power == x

-- The neighbours of a positive ratio on the grid of multiples of a power of ten, nearer one
-- first; from the middle the even one comes first.
def neighbours (num den : Nat) (power : Int) : List Digits :=
  let (n, d) := if 0 ≤ power then (num, den * Nat.pow 10 power.toNat)
    else (num * Nat.pow 10 (-power).toNat, den)
  let below := n / d
  let rest := n % d
  let order := if 2 * rest < d ∨ (2 * rest = d ∧ below % 2 = 0) then [below, below + 1]
    else [below + 1, below]
  order.map (⟨·, power⟩)

def firstReading (x : Binary64) (num den : Nat) : Nat → Int → Option Digits
  | 0, _ => none
  | limit + 1, power =>
    match (neighbours num den power).find? (readsBack x) with
    | some d => some d
    | none => firstReading x num den limit (power - 1)

-- Seventeen digits always suffice.
def shortest? (mantissa : Nat) (exponent : Int) : Option Digits :=
  let (num, den) := Binary64.ratio mantissa exponent
  firstReading (.finite false mantissa exponent) num den 17 (leadingPlace num den)

-- How a number is laid out: positional between two places of the first digit, and otherwise one
-- digit, a point and the rest, with a signed exponent of at least two digits.
structure Layout where
  leastPlace : Int
  greatestPlace : Int
  exponentMark : String
  exponentWidth : Nat
  wholePart : String
  nan : String
  infinite : String

def dropZeros (digits : List Char) : List Char :=
  (digits.reverse.dropWhile (· == '0')).reverse

def zeros (n : Nat) : List Char := List.replicate n '0'

def exponentText (l : Layout) (place : Int) : String :=
  let size := (Nat.repr place.natAbs).toList
  l.exponentMark ++ (if place < 0 then "-" else "+")
    ++ String.ofList (zeros (l.exponentWidth - size.length) ++ size)

def Layout.positional (l : Layout) (digits : List Char) (place : Int) : String :=
  if place < 0 then
    String.ofList (['0', '.'] ++ zeros (-place - 1).toNat ++ digits)
  else
    let whole := place.toNat + 1
    if digits.length ≤ whole then
      String.ofList (digits ++ zeros (whole - digits.length)) ++ l.wholePart
    else String.ofList (digits.take whole ++ ['.'] ++ digits.drop whole)

def Layout.scientific (l : Layout) (digits : List Char) (place : Int) : String :=
  let body := match digits with
    | [] => []
    | [d] => [d]
    | d :: rest => d :: '.' :: rest
  String.ofList body ++ exponentText l place

def Layout.render (l : Layout) : Binary64 → String
  | .nan => l.nan
  | .infinite negative => if negative then "-" ++ l.infinite else l.infinite
  | .finite negative mantissa exponent =>
    let text :=
      if mantissa = 0 then "0" ++ l.wholePart
      else match shortest? mantissa exponent with
        | none => l.nan
        | some d =>
          let all := (Nat.repr d.digits).toList
          let place := (all.length : Int) - 1 + d.power
          let digits := dropZeros all
          if l.leastPlace ≤ place ∧ place ≤ l.greatestPlace then l.positional digits place
          else l.scientific digits place
    if negative then "-" ++ text else text

end Parimutuel.Decimal
