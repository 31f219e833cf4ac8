import Parimutuel.Text.Basic

namespace Parimutuel.Text

-- `first` is the first of `count` surrogates from `position` on.
inductive NativeError where
  | surrogates (first position count : Nat)
  | zero
  deriving Repr, DecidableEq

def NativeError.message : NativeError → String
  | .surrogates first position count =>
    let place :=
      if count = 1 then "character '\\u" ++ hex 4 first ++ "' in position " ++ Nat.repr position
      else "characters in position " ++ Nat.repr position ++ "-" ++ Nat.repr (position + count - 1)
    "'utf-8' codec can't encode " ++ place ++ ": surrogates not allowed"
  | .zero => "embedded null byte"

def isByteEscape (c : Nat) : Bool := 0xdc80 ≤ c && c ≤ 0xdcff

-- Where in a text the surrogates without bytes are: from the first of them to the end of the
-- surrogates that follow one another there.
def unencodable? (position : Nat) : Text → Option NativeError
  | [] => none
  | c :: rest =>
    if isSurrogate c && !isByteEscape c then
      some (.surrogates c position ((rest.takeWhile isSurrogate).length + 1))
    else unencodable? (position + 1) rest

def native? (t : Text) : Except NativeError Unit :=
  match unencodable? 0 t with
  | some e => .error e
  | none => if t.contains 0 then .error .zero else .ok ()

def nativeSize : Text → Nat
  | [] => 0
  | c :: rest =>
    (if c < 0x80 ∨ isByteEscape c then 1 else if c < 0x800 then 2 else if c < 0x10000 then 3 else 4)
      + nativeSize rest

end Parimutuel.Text
