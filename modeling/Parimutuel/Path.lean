import Parimutuel.Text.Native
import Parimutuel.Text.Quoted

namespace Parimutuel

-- `root` holds the slashes at the front.
structure Path where
  root : Text
  parts : List Text
  deriving Repr, DecidableEq

inductive Entry where
  | file (bytes : List UInt8)
  | folder
  deriving Repr, DecidableEq

namespace Path

def slash : Nat := 0x2f
def point : Nat := 0x2e

def up : Text := [point, point]

-- Empty parts and single points lead nowhere and are left out. Two slashes at the front are kept,
-- any other number of them is one.
def ofText (t : Text) : Path where
  root :=
    match (t.takeWhile (· == slash)).length with
    | 0 => []
    | 2 => [slash, slash]
    | _ => [slash]
  parts := (t.splitBy fun a b => a != slash && b != slash).filter fun part =>
    part.head? != some slash && part != [point]

def shown (p : Path) : Text :=
  if p.root = [] ∧ p.parts = [] then [point] else p.root ++ [slash].intercalate p.parts

inductive Problem where
  | native (e : Text.NativeError)
  | missing
  | notFolder
  | isFolder
  | tooLong
  deriving Repr, DecidableEq

def said (number : Nat) (words : String) (p : Path) : String :=
  "[Errno " ++ Nat.repr number ++ "] " ++ words ++ ": " ++ Text.quoted p.shown

def Problem.message (p : Path) : Problem → String
  | .native e => e.message
  | .missing => said 2 "No such file or directory" p
  | .notFolder => said 20 "Not a directory" p
  | .isFolder => said 21 "Is a directory" p
  | .tooLong => said 36 "File name too long" p

def partLimit : Nat := 255

-- A path has to take fewer bytes than this.
def sizeLimit : Nat := 4096

-- One part further. The folder above the first one is that folder itself.
def below (p : Path) (part : Text) : Path :=
  if part = up ∧ p.parts.getLast? ≠ some up ∧ (p.root ≠ [] ∨ p.parts ≠ []) then
    { p with parts := p.parts.dropLast }
  else { p with parts := p.parts ++ [part] }

-- `place` is where the parts so far have led, and `here` what is there.
def follow (files : Path → Option Entry) (place : Path) (here : Entry) :
    List Text → Except Problem Entry
  | [] => .ok here
  | part :: rest =>
    match here with
    | .file _ => .error .notFolder
    | .folder =>
      if partLimit < Text.nativeSize part then .error .tooLong
      else if part = up then follow files (place.below part) .folder rest
      else
        match files (place.below part) with
        | none => .error .missing
        | some next => follow files (place.below part) next rest

def bytes? (files : Path → Option Entry) (p : Path) : Except Problem (List UInt8) := do
  (Text.native? p.shown).mapError .native
  if sizeLimit ≤ Text.nativeSize p.shown then .error .tooLong
  match ← follow files { p with parts := [] } .folder p.parts with
  | .file bytes => return bytes
  | .folder => .error .isFolder

end Path
end Parimutuel
