import Parimutuel.Fault
import Parimutuel.Json.Misuse

namespace Parimutuel

-- Why there is no answer: the input is refused, or its refusal cannot be put into words; or, where it
-- was not checked first, a value is used in a way its kind does not allow, a text is no numeral, or
-- the arithmetic fails.
inductive Failure where
  | refused (message : String)
  | unsayable (why : Json.Unsayable)
  | misused (misuse : Json.Misuse)
  | numeral (e : Text.NumeralError)
  | fault (fault : Fault)
  deriving Repr

def Failure.message : Failure → String
  | .refused message => message
  | .unsayable why => why.message
  | .misused m => m.message
  | .numeral e => e.message
  | .fault f => f.message

end Parimutuel
