import Parimutuel.Text.Blank
import Parimutuel.Text.Digit
import Parimutuel.Text.Quoted

namespace Parimutuel.Text

inductive NumeralError where
  | malformed (t : Text)
  | tooLong (digits : Nat)
  deriving Repr, DecidableEq

def digitLimit : Nat := 4300

-- The refused text is shown in quotes, cut after 200 characters.
def NumeralError.message : NumeralError → String
  | .malformed t => "invalid literal for int() with base 10: " ++ String.ofList ((quoted t).toList.take 200)
  | .tooLong digits =>
    "Exceeds the limit (" ++ Nat.repr digitLimit ++ " digits) for integer string conversion: value has "
      ++ Nat.repr digits ++ " digits; use sys.set_int_max_str_digits() to increase the limit"

def underscore : Nat := 0x5f
def plus : Nat := 0x2b
def minus : Nat := 0x2d

-- The digits at the front and what follows them. A digit has to come next at the start and after
-- an underscore.
def digitRun? (needsDigit : Bool) : Text → Option (List Nat × Text)
  | [] => if needsDigit then none else some ([], [])
  | c :: rest =>
    match digit? c with
    | some d => (digitRun? false rest).map fun run => (d :: run.1, run.2)
    | none =>
      if needsDigit then none
      else if c = underscore then digitRun? true rest
      else some ([], c :: rest)

def ofDigits (digits : List Nat) : Nat := digits.foldl (fun n d => n * 10 + d) 0

def sign : Text → Bool × Text
  | [] => (false, [])
  | c :: rest =>
    if c = minus then (true, rest) else if c = plus then (false, rest) else (false, c :: rest)

def integer? (t : Text) : Except NumeralError Int :=
  let (negative, body) := sign (t.dropWhile isNumeralBlank)
  match digitRun? true body with
  | none => .error (.malformed t)
  | some (digits, rest) =>
    if digits.length > digitLimit then .error (.tooLong digits.length)
    else if rest.all isNumeralBlank then
      .ok (if negative then -(ofDigits digits : Int) else ofDigits digits)
    else .error (.malformed t)

end Parimutuel.Text
