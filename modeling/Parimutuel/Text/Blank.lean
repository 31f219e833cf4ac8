import Parimutuel.Text.Basic

namespace Parimutuel.Text

def wideBlanks : List Nat :=
  [0x85, 0xa0, 0x1680, 0x2000, 0x2001, 0x2002, 0x2003, 0x2004, 0x2005, 0x2006, 0x2007, 0x2008,
    0x2009, 0x200a, 0x2028, 0x2029, 0x202f, 0x205f, 0x3000]

-- What may stand around a numeral.
def isNumeralBlank (c : Nat) : Bool := (9 ≤ c && c ≤ 13) || c == 0x20 || wideBlanks.contains c

def isBlank (c : Nat) : Bool := isNumeralBlank c || (0x1c ≤ c && c ≤ 0x1f)

def strip (t : Text) : Text :=
  ((t.dropWhile isBlank).reverse.dropWhile isBlank).reverse

end Parimutuel.Text
