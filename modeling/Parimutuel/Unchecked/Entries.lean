import Parimutuel.Stakes
import Parimutuel.Unchecked.Calculation

namespace Parimutuel

abbrev Entries := List (Json × Json)

def Json.isKey : Json → Bool
  | .list _ | .object _ => false
  | _ => true

def Number.same : Number → Number → Bool
  | .whole a, .whole b => a == b
  | .whole a, .real y => y.compareInt? a == some .eq
  | .real x, .whole b => x.compareInt? b == some .eq
  | .real x, .real y => x.compare? y == some .eq

def Json.sameKey (left right : Json) : Bool :=
  match left.number?, right.number?, left, right with
  | some a, some b, _, _ => a.same b
  | _, _, .text a, .text b => a == b
  | _, _, .null, .null => true
  | _, _, _, _ => false

namespace Entries

-- A key that is already there keeps its place and its kind, and takes the new value.
def put : Entries → Json → Json → Entries
  | [], key, value => [(key, value)]
  | (known, old) :: rest, key, value =>
    if known.sameKey key then (known, value) :: rest else (known, old) :: put rest key value

-- The last value given for a key holds.
def ofPairs? (pairs : List (Json × Json)) : Except Failure Entries :=
  pairs.foldlM (fun entries p =>
    if p.1.isKey then .ok (entries.put p.1 p.2) else .error (.misused (.notKey p.1.kind))) []

def total? (e : Entries) : Except Failure Json := Json.sum? (e.map Prod.snd)

-- How far down or up the entries go from the first one on, and what comes after that.
def slope? (down : Bool) (last : Json × Json) : Entries → Except Failure (Entries × Entries)
  | [] => .ok ([], [])
  | next :: rest => do
    if (← Json.relate? .less next.1 last.1) = down then
      let (more, left) ← slope? down next rest
      return (next :: more, left)
    else return ([], next :: rest)

-- The place of a key among sorted entries, looked for by halving; after its equals.
def place? (sorted : Entries) (key : Json) (low high : Nat) : Except Failure Nat :=
  if low < high then
    match Json.relate? .less key (sorted.getD (low + (high - low) / 2) (.null, .null)).1 with
    | .error failure => .error failure
    | .ok true => place? sorted key low (low + (high - low) / 2)
    | .ok false => place? sorted key (low + (high - low) / 2 + 1) high
  else .ok low
termination_by high - low

def insert? (sorted : Entries) (entry : Json × Json) : Except Failure Entries := do
  let k ← place? sorted entry.1 0 sorted.length
  return sorted.take k ++ entry :: sorted.drop k

-- The slope at the front is sorted as it is or backwards, and the rest is put in one by one.
def sorted? : Entries → Except Failure Entries
  | first :: second :: rest => do
    let down ← Json.relate? .less second.1 first.1
    let (more, left) ← slope? down second rest
    let front := first :: second :: more
    left.foldlM insert? (if down then front.reverse else front)
  | few => .ok few

def ofStake (p : Int × Int) : Json × Json := (.int p.1, .int p.2)

theorem put_stakes (s : Stakes) (i x : Int) :
    put (s.map ofStake) (.int i) (.int x) = (s.put i x).map ofStake := by
  induction s with
  | nil => rfl
  | cons head rest ih =>
    obtain ⟨known, old⟩ := head
    have same : Json.sameKey (.int known) (.int i) = (known == i) := rfl
    simp only [List.map_cons, ofStake, put, same, Stakes.put]
    by_cases h : known = i
    · simp [h, ofStake]
    · simp only [beq_eq_false_iff_ne.2 h, if_neg h, Bool.false_eq_true, if_false, List.map_cons]
      rw [← ih]
      rfl

theorem foldlM_put_stakes (pairs : List (Int × Int)) (s : Stakes) :
    (pairs.map ofStake).foldlM (fun entries p =>
        if p.1.isKey then Except.ok (put entries p.1 p.2)
        else .error (Failure.misused (.notKey p.1.kind))) (s.map ofStake) =
      .ok ((pairs.foldl (fun s p => s.put p.1 p.2) s).map ofStake) := by
  induction pairs generalizing s with
  | nil => rfl
  | cons p rest ih =>
    rw [List.map_cons, List.foldlM_cons, List.foldl_cons, ← ih, ← put_stakes]
    rfl

theorem ofPairs?_stakes (pairs : List (Int × Int)) :
    ofPairs? (pairs.map ofStake) = .ok ((Stakes.ofPairs pairs).map ofStake) :=
  foldlM_put_stakes pairs []

theorem total?_stakes (s : Stakes) : total? (s.map ofStake) = .ok (.int s.total) := by
  have amounts : (s.map ofStake).map Prod.snd = (s.map Prod.snd).map Json.int := by
    rw [List.map_map, List.map_map]
    rfl
  rw [total?, amounts, Json.sum?_int]
  rfl

end Entries
end Parimutuel
