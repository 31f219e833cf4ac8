import Parimutuel.Decimal.Shortest
import Parimutuel.Text.Numeral

namespace Parimutuel

inductive Json where
  | null
  | bool (b : Bool)
  | int (n : Int)
  | real (x : Binary64)
  | text (t : Text)
  | list (items : List Json)
  | object (members : List (Text × Json))
  deriving Repr

namespace Json

-- Positional from 0.0001 up to sixteen digits before the point, which is always written.
def numberLayout : Decimal.Layout where
  leastPlace := -4
  greatestPlace := 15
  exponentMark := "e"
  exponentWidth := 2
  wholePart := ".0"
  nan := "nan"
  infinite := "inf"

-- Integers of more digits than are ever written out, and parts that stand too deep in one another.
inductive Unsayable where
  | tooLong
  | tooDeep
  deriving Repr, DecidableEq

def Unsayable.message : Unsayable → String
  | .tooLong =>
    "Exceeds the limit (" ++ toString Text.digitLimit ++ " digits) for integer string conversion; "
      ++ "use sys.set_int_max_str_digits() to increase the limit"
  | .tooDeep => "maximum recursion depth exceeded while getting the repr of an object"

def decimal? (n : Int) : Except Unsayable String :=
  if Nat.pow 10 Text.digitLimit ≤ n.natAbs then .error .tooLong else .ok (toString n)

def separated (first rest : String) (last : Bool) : String :=
  if last then first else first ++ ", " ++ rest

mutual

-- How messages show a value, whose parts may stand in one another up to `room` deep.
def describe? (room : Nat) : Json → Except Unsayable String
  | .null => .ok "None"
  | .bool true => .ok "True"
  | .bool false => .ok "False"
  | .int n => decimal? n
  | .real x => .ok (numberLayout.render x)
  | .text t => .ok t.quoted
  | .list items => do return "[" ++ (← describeItems? room items) ++ "]"
  | .object members => do return "\x7b" ++ (← describeMembers? room members) ++ "\x7d"

def describeItems? (room : Nat) : List Json → Except Unsayable String
  | [] => .ok ""
  | item :: rest =>
    if room = 0 then .error .tooDeep
    else do
      let first ← describe? (room - 1) item
      return separated first (← describeItems? room rest) rest.isEmpty

def describeMembers? (room : Nat) : List (Text × Json) → Except Unsayable String
  | [] => .ok ""
  | (name, value) :: rest =>
    if room = 0 then .error .tooDeep
    else do
      let first ← describe? (room - 1) value
      return separated (name.quoted ++ ": " ++ first) (← describeMembers? room rest) rest.isEmpty

end

def kind : Json → String
  | .null => "NoneType"
  | .bool _ => "bool"
  | .int _ => "int"
  | .real _ => "float"
  | .text _ => "str"
  | .list _ => "list"
  | .object _ => "dict"

-- What a value counts for where a truth value is wanted: nothing, zero and what is empty do not
-- hold.
def truth : Json → Bool
  | .null => false
  | .bool b => b
  | .int n => n != 0
  | .real (.finite _ mantissa _) => mantissa != 0
  | .real _ => true
  | .text t => !t.isEmpty
  | .list items => !items.isEmpty
  | .object members => !members.isEmpty

-- A member that is there again takes the new value in the old place.
def putMember : List (Text × Json) → Text → Json → List (Text × Json)
  | [], name, value => [(name, value)]
  | (known, old) :: rest, name, value =>
    if known = name then (known, value) :: rest else (known, old) :: putMember rest name value

def member? (members : List (Text × Json)) (name : String) : Option Json :=
  members.lookup (Text.ofString name)

end Json
end Parimutuel
