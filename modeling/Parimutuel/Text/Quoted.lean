import Parimutuel.Text.Printable

namespace Parimutuel.Text

def singleQuote : Nat := 0x27
def doubleQuote : Nat := 0x22
def backslash : Nat := 0x5c

-- The quote that needs the fewest escapes, single by preference.
def quoteFor (t : Text) : Nat :=
  if t.contains singleQuote && !t.contains doubleQuote then doubleQuote else singleQuote

def escaped (quote c : Nat) : String :=
  if c = quote ∨ c = backslash then String.ofList ['\\', Char.ofNat c]
  else if c = 0x09 then "\\t"
  else if c = 0x0a then "\\n"
  else if c = 0x0d then "\\r"
  else if isPrintable c then String.singleton (Char.ofNat c)
  else if c ≤ 0xff then "\\x" ++ hex 2 c
  else if c ≤ 0xffff then "\\u" ++ hex 4 c
  else "\\U" ++ hex 8 c

def quoted (t : Text) : String :=
  let quote := quoteFor t
  let edge := String.singleton (Char.ofNat quote)
  edge ++ String.join (t.map (escaped quote)) ++ edge

end Parimutuel.Text
