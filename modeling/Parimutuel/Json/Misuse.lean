import Parimutuel.Json.Value

namespace Parimutuel.Json

inductive Misuse where
  | noMembers (kind : String)
  | textByName
  | listByName
  | notRow (kind : String)
  | notPosition (kind : String)
  | notReadPosition (kind : String)
  | notKey (kind : String)
  | notWhole (kind : String)
  | noOperation (sign left right : String)
  | noRepetition (kind : String)
  | endlessRepetition
  | endlessText
  | beyondMemory
  | noOrder (sign left right : String)
  | notAmount (kind : String)
  | infiniteAmount
  | undefinedAmount
  | beyondFractions
  | beyondSquares
  | noCapitals (kind : String)
  | notText (kind : String)
  deriving Repr, DecidableEq

def Misuse.message : Misuse → String
  | .noMembers kind => "argument of type '" ++ kind ++ "' is not iterable"
  | .textByName => "string indices must be integers, not 'str'"
  | .listByName => "list indices must be integers or slices, not str"
  | .notRow kind => "'" ++ kind ++ "' object is not iterable"
  | .notPosition kind => "list indices must be integers or slices, not " ++ kind
  | .notReadPosition kind => "tuple indices must be integers or slices, not " ++ kind
  | .notKey kind => "unhashable type: '" ++ kind ++ "'"
  | .notWhole kind => "'" ++ kind ++ "' object cannot be interpreted as an integer"
  | .noOperation sign left right =>
    "unsupported operand type(s) for " ++ sign ++ ": '" ++ left ++ "' and '" ++ right ++ "'"
  | .noOrder sign left right =>
    "'" ++ sign ++ "' not supported between instances of '" ++ left ++ "' and '" ++ right ++ "'"
  | .noRepetition kind => "can't multiply sequence by non-int of type '" ++ kind ++ "'"
  | .endlessRepetition => "cannot fit 'int' into an index-sized integer"
  | .endlessText => "repeated string is too long"
  | .beyondMemory => ""
  | .notAmount kind =>
    "int() argument must be a string, a bytes-like object or a real number, not '" ++ kind ++ "'"
  | .infiniteAmount => "cannot convert float infinity to integer"
  | .undefinedAmount => "cannot convert float NaN to integer"
  | .beyondFractions => "int too large to convert to float"
  | .beyondSquares => "(34, 'Numerical result out of range')"
  | .noCapitals kind => "'" ++ kind ++ "' object has no attribute 'upper'"
  | .notText kind => "str expected, not " ++ kind

-- A value as a row: a list is one, an object is the row of its names, and a text the row of its
-- characters.
def items? : Json → Except Misuse (List Json)
  | .list items => .ok items
  | .object members => .ok (members.map fun m => .text m.1)
  | .text t => .ok (t.map fun c => .text [c])
  | value => .error (.notRow value.kind)

-- A value as an integer where nothing but integers and truth values count as one.
def position? : Json → Option Int
  | .int n => some n
  | .bool b => some (if b then 1 else 0)
  | _ => none

def fraction? (n : Int) : Except Misuse Binary64 :=
  match Binary64.ofInt n with
  | .infinite _ => .error .beyondFractions
  | x => .ok x

end Parimutuel.Json
