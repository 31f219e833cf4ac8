import Parimutuel.Text.Basic

namespace Parimutuel.Text

inductive Utf8Problem where
  | badStart
  | badContinuation
  | endOfData
  deriving Repr, DecidableEq

-- Covers the bytes from `start` up to but not including `stop`; `lead` is the first of them.
structure Utf8Error where
  start : Nat
  stop : Nat
  lead : Nat
  problem : Utf8Problem
  deriving Repr, DecidableEq

def Utf8Problem.text : Utf8Problem → String
  | .badStart => "invalid start byte"
  | .badContinuation => "invalid continuation byte"
  | .endOfData => "unexpected end of data"

def Utf8Error.message (e : Utf8Error) : String :=
  let place :=
    if e.stop = e.start + 1 then "byte 0x" ++ hex 2 e.lead ++ " in position " ++ Nat.repr e.start
    else "bytes in position " ++ Nat.repr e.start ++ "-" ++ Nat.repr (e.stop - 1)
  "'utf-8' codec can't decode " ++ place ++ ": " ++ e.problem.text

-- A character whose lead byte was read: the continuation bytes still owed, the range of the next
-- one, and the bits so far.
structure Unfinished where
  start : Nat
  lead : Nat
  owed : Nat
  low : Nat
  high : Nat
  bits : Nat
  deriving Repr, DecidableEq

def unfinished? (start b : Nat) : Option Unfinished :=
  if 0xc2 ≤ b ∧ b ≤ 0xdf then some ⟨start, b, 1, 0x80, 0xbf, b - 0xc0⟩
  else if b = 0xe0 then some ⟨start, b, 2, 0xa0, 0xbf, 0⟩
  else if b = 0xed then some ⟨start, b, 2, 0x80, 0x9f, 0xd⟩
  else if 0xe1 ≤ b ∧ b ≤ 0xef then some ⟨start, b, 2, 0x80, 0xbf, b - 0xe0⟩
  else if b = 0xf0 then some ⟨start, b, 3, 0x90, 0xbf, 0⟩
  else if b = 0xf4 then some ⟨start, b, 3, 0x80, 0x8f, 4⟩
  else if 0xf1 ≤ b ∧ b ≤ 0xf3 then some ⟨start, b, 3, 0x80, 0xbf, b - 0xf0⟩
  else none

def decodeFrom (position : Nat) : Option Unfinished → List UInt8 → Except Utf8Error Text
  | none, [] => .ok []
  | some u, [] => .error ⟨u.start, position, u.lead, .endOfData⟩
  | none, byte :: rest =>
    let b := byte.toNat
    if b < 0x80 then (decodeFrom (position + 1) none rest).map (b :: ·)
    else match unfinished? position b with
      | none => .error ⟨position, position + 1, b, .badStart⟩
      | some u => decodeFrom (position + 1) (some u) rest
  | some u, byte :: rest =>
    let b := byte.toNat
    if u.low ≤ b ∧ b ≤ u.high then
      let bits := u.bits * 0x40 + (b - 0x80)
      if u.owed = 1 then (decodeFrom (position + 1) none rest).map (bits :: ·)
      else decodeFrom (position + 1) (some { u with owed := u.owed - 1, low := 0x80, high := 0xbf, bits }) rest
    else .error ⟨u.start, position, u.lead, .badContinuation⟩

def ofUtf8? (bytes : List UInt8) : Except Utf8Error Text := decodeFrom 0 none bytes

-- A carriage return ends a line, and the line feed right after it belongs to the same end.
def foldLines : Text → Text
  | [] => []
  | c :: rest =>
    if c = 0x0d then
      match rest with
      | [] => [0x0a]
      | d :: tail => if d = 0x0a then 0x0a :: foldLines tail else 0x0a :: foldLines (d :: tail)
    else c :: foldLines rest

end Parimutuel.Text
