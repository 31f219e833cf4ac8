namespace Parimutuel

-- `nothingGreatest` asks for the greatest of no numbers at all, and `beyondPositions` is a number
-- that cannot count the entries of any row. `endlessRebate` stands for a fee schedule that pays back
-- more than is staked, so that no largest affordable stake exists.
inductive Fault where
  | divisionByZero
  | fractionByZero
  | negativeRoot
  | nothingGreatest
  | readOutside
  | writeOutside
  | beyondPositions
  | endlessRebate
  deriving Repr, DecidableEq

def Fault.message : Fault → String
  | .divisionByZero => "integer division or modulo by zero"
  | .fractionByZero => "float floor division by zero"
  | .negativeRoot => "isqrt() argument must be nonnegative"
  | .nothingGreatest => "max() arg is an empty sequence"
  | .readOutside => "tuple index out of range"
  | .writeOutside => "list assignment index out of range"
  | .beyondPositions => "cannot fit 'int' into an index-sized integer"
  | .endlessRebate => "the rebate exceeds the staked total"

-- Rounds toward minus infinity, whatever the sign of the divisor.
def divide? (n d : Int) : Except Fault Int :=
  if d = 0 then .error .divisionByZero else .ok (n.fdiv d)

theorem divide?_ok {n d : Int} (h : d ≠ 0) : divide? n d = .ok (n.fdiv d) := by
  simp [divide?, h]

theorem divide?_pos {n d : Int} (h : 0 < d) : divide? n d = .ok (n / d) := by
  rw [divide?_ok (by omega), Int.fdiv_eq_ediv_of_nonneg n (by omega)]

-- Entries are counted from either end: 0 is the first one and -1 the last.
def position? (size : Nat) (i : Int) : Option Nat :=
  if 0 ≤ i then if i < size then some i.toNat else none
  else if 0 ≤ i + size then some (i + size).toNat
  else none

theorem position?_lt {size : Nat} {i : Int} {k : Nat} (h : position? size i = some k) :
    k < size := by
  unfold position? at h
  split at h <;> split at h <;> simp at h <;> omega

theorem position?_of_mem {size : Nat} {i : Int} (low : 0 ≤ i) (high : i < size) :
    position? size i = some i.toNat := by
  simp [position?, low, high]

-- Positions are signed 64-bit numbers.
def positionLimit : Int := 9223372036854775808

def missed (fault : Fault) (i : Int) : Fault :=
  if -positionLimit ≤ i ∧ i < positionLimit then fault else .beyondPositions

def read? (row : List Int) (i : Int) : Except Fault Int :=
  match position? row.length i with
  | none => .error (missed .readOutside i)
  | some k => .ok (row.getD k 0)

theorem read?_ok {row : List Int} {i : Int} (low : 0 ≤ i) (high : i < row.length) :
    read? row i = .ok (row.getD i.toNat 0) := by
  simp only [read?, position?_of_mem low high]

def write? (row : List Int) (i amount : Int) : Except Fault (List Int) :=
  match position? row.length i with
  | none => .error (missed .writeOutside i)
  | some k => .ok (row.set k amount)

theorem write?_ok {row : List Int} {i : Int} (amount : Int) (low : 0 ≤ i) (high : i < row.length) :
    write? row i amount = .ok (row.set i.toNat amount) := by
  simp only [write?, position?_of_mem low high]

-- The members that pass a test, which is asked of all of them in order.
def keepWhere? {ε : Type} (test : Int → Except ε Bool) : List Int → Except ε (List Int)
  | [] => .ok []
  | i :: rest => do
    let passes ← test i
    let others ← keepWhere? test rest
    return if passes then i :: others else others

theorem keepWhere?_ok {ε : Type} {test : Int → Except ε Bool} {p : Int → Bool} (row : List Int)
    (h : ∀ i ∈ row, test i = .ok (p i)) : keepWhere? test row = .ok (row.filter p) := by
  induction row with
  | nil => rfl
  | cons i rest ih =>
    have others := ih fun j member => h j (List.mem_cons_of_mem i member)
    simp only [keepWhere?, h i List.mem_cons_self, others, bind, Except.bind, pure, Except.pure,
      List.filter_cons]

theorem mapM_ok {ε α β : Type} {f : α → Except ε β} {g : α → β} (row : List α)
    (h : ∀ x ∈ row, f x = .ok (g x)) : row.mapM f = .ok (row.map g) := by
  induction row with
  | nil => rfl
  | cons x rest ih =>
    have others := ih fun y member => h y (List.mem_cons_of_mem x member)
    rw [List.mapM_cons, h x List.mem_cons_self, others]
    rfl

theorem mapM_length {α β : Type} {f : α → Except Fault β} (row : List α) (result : List β)
    (run : row.mapM f = .ok result) : result.length = row.length := by
  induction row generalizing result with
  | nil => cases run; rfl
  | cons x rest ih =>
    rw [List.mapM_cons] at run
    cases first : f x with
    | error fault => simp [first, bind, Except.bind] at run
    | ok y =>
      cases others : rest.mapM f with
      | error fault => simp [first, others, bind, Except.bind] at run
      | ok ys =>
        simp only [first, others, bind, Except.bind, pure, Except.pure, Except.ok.injEq] at run
        subst run
        simp [ih ys others]

end Parimutuel
