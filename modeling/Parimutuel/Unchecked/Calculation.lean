import Parimutuel.Basic
import Parimutuel.Decimal.Arithmetic
import Parimutuel.Failure
import Parimutuel.Pricing.Root

namespace Parimutuel

theorem mapError_ok {α ε δ : Type} (f : ε → δ) (a : α) :
    (Except.ok a : Except ε α).mapError f = .ok a := rfl

theorem mapError_error {α ε δ : Type} (f : ε → δ) (e : ε) :
    (Except.error e : Except ε α).mapError f = .error (f e) := rfl

inductive Number where
  | whole (n : Int)
  | real (x : Binary64)
  deriving Repr, DecidableEq

def Number.fraction? : Number → Except Failure Binary64
  | .whole n => (Json.fraction? n).mapError .misused
  | .real x => .ok x

inductive Relation where
  | less
  | atMost
  | greater
  | atLeast
  deriving Repr, DecidableEq

namespace Relation

def sign : Relation → String
  | .less => "<"
  | .atMost => "<="
  | .greater => ">"
  | .atLeast => ">="

def ofInts : Relation → Int → Int → Bool
  | .less, a, b => a < b
  | .atMost, a, b => a ≤ b
  | .greater, a, b => a > b
  | .atLeast, a, b => a ≥ b

-- What cannot be compared is in no relation.
def ofOrder : Relation → Option Ordering → Bool
  | .less, some .lt => true
  | .atMost, some .lt | .atMost, some .eq => true
  | .greater, some .gt => true
  | .atLeast, some .gt | .atLeast, some .eq => true
  | _, _ => false

-- Integers and fractions are compared exactly.
def ofNumbers (r : Relation) : Number → Number → Bool
  | .whole a, .whole b => r.ofInts a b
  | .whole a, .real y => r.ofOrder (y.compareInt? a)
  | .real x, .whole b => r.ofOrder ((x.compareInt? b).map Ordering.swap)
  | .real x, .real y => r.ofOrder (x.compare? y)

end Relation

namespace Json

def number? : Json → Option Number
  | .int n => some (.whole n)
  | .bool b => some (.whole (if b then 1 else 0))
  | .real x => some (.real x)
  | _ => none

-- An integer that could be worked out, or what went wrong.
def ofInt? (n : Except Fault Int) : Except Failure Json := (n.map .int).mapError .fault

-- One operation on integers and its like on fractions.
def calculate? (sign : String) (whole : Int → Int → Except Failure Json)
    (real : Binary64 → Binary64 → Except Failure Json) (left right : Json) : Except Failure Json :=
  match left.number?, right.number? with
  | some (.whole a), some (.whole b) => whole a b
  | some a, some b => do real (← a.fraction?) (← b.fraction?)
  | _, _ => .error (.misused (.noOperation sign left.kind right.kind))

def add? : Json → Json → Except Failure Json :=
  calculate? "+" (fun a b => .ok (.int (a + b))) (fun x y => .ok (.real (x.add y)))

def subtract? : Json → Json → Except Failure Json :=
  calculate? "-" (fun a b => .ok (.int (a - b))) (fun x y => .ok (.real (x.subtract y)))

-- Only numbers are multiplied; `productOver?` is for what may be a row.
def multiply? : Json → Json → Except Failure Json :=
  calculate? "*" (fun a b => .ok (.int (a * b))) (fun x y => .ok (.real (x.multiply y)))

def floorDivide? : Json → Json → Except Failure Json :=
  calculate? "//" (fun a b => ofInt? (divide? a b)) fun x y =>
    if y.isZero then .error (.fault .fractionByZero) else .ok (.real (x.floorDivide y))

-- A fraction that is not infinite has no infinite square.
def square? (value : Json) : Except Failure Json :=
  match value.number? with
  | some (.whole n) => .ok (.int (n * n))
  | some (.real x) =>
    if !x.isInfinite && (x.multiply x).isInfinite then .error (.misused .beyondSquares)
    else .ok (.real (x.multiply x))
  | none => .error (.misused (.noOperation "** or pow()" value.kind (Json.int 2).kind))

def root? (value : Json) : Except Failure Json :=
  match value.position? with
  | some n => if n < 0 then .error (.fault .negativeRoot) else .ok (.int (floorRoot n.toNat))
  | none => .error (.misused (.notWhole value.kind))

def sum? (row : List Json) : Except Failure Json := row.foldlM add? (.int 0)

def isRow : Json → Bool
  | .text _ | .list _ => true
  | _ => false

-- How many bytes a row takes up: eight for an item of a list, and as many for each character of a
-- text as its greatest one needs.
def rowBytes : Json → Nat
  | .list items => 8 * items.length
  | .text t =>
    let greatest := t.foldl max 0
    t.length * (if greatest < 0x100 then 1 else if greatest < 0x10000 then 2 else 4)
  | _ => 0

-- The source sets no bound on what a row takes up. This one stands for the machine: 64 GiB, which is
-- more than the largest rows take that can be stated.
def memory : Nat := 68719476736

-- A row times an integer is that row over and over again, if it fits, and cannot be divided.
def repeated? (row count : Json) : Except Failure Json :=
  match count.position? with
  | none => .error (.misused (.noRepetition count.kind))
  | some n =>
    if n < -positionLimit ∨ positionLimit ≤ n then .error (.misused .endlessRepetition)
    else if row.rowBytes * n ≤ memory then
      .error (.misused (.noOperation "//" row.kind (Json.int 0).kind))
    else
      match row with
      | .text t =>
        if positionLimit ≤ t.length * n then .error (.misused .endlessText)
        else .error (.misused .beyondMemory)
      | _ => .error (.misused .beyondMemory)

def productOver? (left right : Json) (divisor : Int) : Except Failure Json :=
  if left.isRow then repeated? left right
  else if right.isRow then repeated? right left
  else do floorDivide? (← multiply? left right) (.int divisor)

def relate? (r : Relation) (left right : Json) : Except Failure Bool :=
  match left.number?, right.number?, left, right with
  | some a, some b, _, _ => .ok (r.ofNumbers a b)
  | _, _, .text a, .text b => .ok (r.ofOrder (some (compare a b)))
  | _, _, _, _ => .error (.misused (.noOrder r.sign left.kind right.kind))

-- Of two equal values the first one is taken.
def larger? (left right : Json) : Except Failure Json := do
  return if ← relate? .greater right left then right else left

def smaller? (left right : Json) : Except Failure Json := do
  return if ← relate? .less right left then right else left

def isZero (value : Json) : Bool :=
  match value.number? with
  | some (.whole n) => n == 0
  | some (.real x) => x.isZero
  | none => false

def at? (row : List Json) (index : Json) : Except Failure Json :=
  match index.position? with
  | none => .error (.misused (.notReadPosition index.kind))
  | some i =>
    match Parimutuel.position? row.length i with
    | none => .error (.fault (missed .readOutside i))
    | some k => .ok (row.getD k .null)

theorem ofInt?_ok (n : Int) : ofInt? (.ok n) = .ok (.int n) := rfl

@[simp] theorem add?_int (a b : Int) : add? (.int a) (.int b) = .ok (.int (a + b)) := rfl

@[simp] theorem subtract?_int (a b : Int) : subtract? (.int a) (.int b) = .ok (.int (a - b)) := rfl

@[simp] theorem multiply?_int (a b : Int) : multiply? (.int a) (.int b) = .ok (.int (a * b)) := rfl

theorem floorDivide?_int (a b : Int) :
    floorDivide? (.int a) (.int b) = ofInt? (divide? a b) := rfl

@[simp] theorem square?_int (n : Int) : square? (.int n) = .ok (.int (n * n)) := rfl

@[simp] theorem relate?_int (r : Relation) (a b : Int) :
    relate? r (.int a) (.int b) = .ok (r.ofInts a b) := rfl

@[simp] theorem isZero_int (n : Int) : isZero (.int n) = (n == 0) := rfl

theorem larger?_int (a b : Int) : larger? (.int a) (.int b) = .ok (.int (max a b)) := by
  simp only [larger?, relate?_int, Relation.ofInts, bind, Except.bind, pure, Except.pure,
    decide_eq_true_eq]
  split
  · rw [Int.max_eq_right (by omega)]
  · rw [Int.max_eq_left (by omega)]

theorem smaller?_int (a b : Int) : smaller? (.int a) (.int b) = .ok (.int (min a b)) := by
  simp only [smaller?, relate?_int, Relation.ofInts, bind, Except.bind, pure, Except.pure,
    decide_eq_true_eq]
  split
  · rw [Int.min_eq_right (by omega)]
  · rw [Int.min_eq_left (by omega)]

theorem foldlM_add?_int (row : List Int) (start : Int) :
    (row.map Json.int).foldlM add? (.int start) = .ok (.int (start + sumOf row)) := by
  induction row generalizing start with
  | nil => simp [sumOf, pure, Except.pure]
  | cons n rest ih =>
    rw [List.map_cons, List.foldlM_cons, add?_int]
    simp only [bind, Except.bind, ih, sumOf, Int.add_assoc]

theorem sum?_int (row : List Int) : sum? (row.map .int) = .ok (.int (sumOf row)) := by
  rw [sum?, foldlM_add?_int, Int.zero_add]

theorem at?_int (row : List Int) (i : Int) :
    at? (row.map .int) (.int i) = ofInt? (read? row i) := by
  simp only [at?, Json.position?, List.length_map, read?]
  cases found : Parimutuel.position? row.length i with
  | none => rfl
  | some k =>
    have inside := position?_lt found
    simp [List.getD_eq_getElem?_getD, inside, ofInt?, Except.map, mapError_ok]

end Json
end Parimutuel
