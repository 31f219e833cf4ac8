import Parimutuel.Text.Numeral

namespace Parimutuel

inductive Flag where
  | help
  | snapshot
  | bankroll
  | board
  deriving Repr, DecidableEq

def Flag.takesValue : Flag → Bool
  | .snapshot | .bankroll => true
  | .help | .board => false

def Flag.name : Flag → String
  | .help => "-h/--help"
  | .snapshot => "--snapshot"
  | .bankroll => "--bankroll"
  | .board => "--board"

-- Every spelling of every option, in the order in which ambiguous ones are listed.
def Flag.spellings : List (Text × Flag) :=
  [("-h", .help), ("--help", .help), ("--snapshot", .snapshot), ("--bankroll", .bankroll),
    ("--board", .board)].map fun p => (Text.ofString p.1, p.2)

-- What an option was given. Two dashes as its value only separate, so that nothing is left.
inductive Given (α : Type) where
  | value (a : α)
  | nothing
  deriving Repr, DecidableEq

structure Options where
  snapshot : Given Text
  bankroll : Option (Given Int) := none
  board : Bool := false
  deriving Repr, DecidableEq

-- Why the command ends here. Asking for help is no mistake.
inductive OptionsExit where
  | help
  | ambiguous (argument : Text) (spellings : List Text)
  | expectedValue (flag : Flag)
  | ignoredValue (flag : Flag) (value : Text)
  | notInteger (flag : Flag) (value : Text)
  | missingSnapshot
  | unrecognized (arguments : List Text)
  deriving Repr, DecidableEq

def OptionsExit.code : OptionsExit → Nat
  | .help => 0
  | _ => 2

def OptionsExit.message : OptionsExit → Text
  | .help => []
  | .ambiguous argument spellings =>
    Text.ofString "ambiguous option: " ++ argument ++ Text.ofString " could match "
      ++ (Text.ofString ", ").intercalate spellings
  | .expectedValue flag => Text.ofString ("argument " ++ flag.name ++ ": expected one argument")
  | .ignoredValue flag value =>
    Text.ofString ("argument " ++ flag.name ++ ": ignored explicit argument " ++ Text.quoted value)
  | .notInteger flag value =>
    Text.ofString ("argument " ++ flag.name ++ ": invalid int value: " ++ Text.quoted value)
  | .missingSnapshot => Text.ofString "the following arguments are required: --snapshot"
  | .unrecognized arguments =>
    Text.ofString "unrecognized arguments: " ++ (Text.ofString " ").intercalate arguments

namespace Options

def dash : Nat := Text.minus
def equalsSign : Nat := 0x3d
def point : Nat := 0x2e
def letterH : Nat := 0x68
def space : Nat := 0x20
def lineFeed : Nat := 0x0a
def separator : Text := [dash, dash]

-- `glued` holds what follows the short option for help in the same argument, with or without an
-- equals sign in between.
inductive Token where
  | word (t : Text)
  | separator
  | unknown (t : Text)
  | option (flag : Flag) (value : Option Text)
  | glued (letters : Text)
  deriving Repr, DecidableEq

def splitEquals (t : Text) : Text × Option Text :=
  match t.dropWhile (· != equalsSign) with
  | [] => (t, none)
  | _ :: rest => (t.takeWhile (· != equalsSign), some rest)

def isDigits (t : Text) : Bool := !t.isEmpty && t.all fun c => (Text.digit? c).isSome

-- A minus sign and digits, with at most one point and a digit after it. A line feed at the end does
-- not count.
def isNegativeNumber (t : Text) : Bool :=
  match t with
  | [] => false
  | c :: rest =>
    let body := if rest.getLast? = some lineFeed then rest.dropLast else rest
    let whole := body.takeWhile (· != point)
    let places := body.dropWhile (· != point)
    c == dash && (isDigits body
      || (whole.all fun d => (Text.digit? d).isSome) && isDigits (places.drop 1))

def candidates (t : Text) : List (Text × Token) :=
  if separator.isPrefixOf t then
    let (name, value) := splitEquals t
    (Flag.spellings.filter fun s => name.isPrefixOf s.1).map fun s => (s.1, .option s.2 value)
  else
    (Flag.spellings.filter fun s => s.1 = t.take 2).map fun s => (s.1, .glued (t.drop 2))

def spelled? (t : Text) : Option Token :=
  match Flag.spellings.lookup t with
  | some flag => some (.option flag none)
  | none =>
    let (name, value) := splitEquals t
    match value, Flag.spellings.lookup name with
    | some v, some flag =>
      some (if v ≠ [] ∧ ¬ separator.isPrefixOf name then .glued v else .option flag (some v))
    | _, _ => none

def classify? (t : Text) : Except OptionsExit Token :=
  if t.head? ≠ some dash ∨ t.length = 1 then .ok (.word t)
  else match spelled? t with
    | some token => .ok token
    | none =>
      match candidates t with
      | [only] => .ok only.2
      | [] => .ok (if isNegativeNumber t ∨ t.contains space then .word t else .unknown t)
      | many => .error (.ambiguous t (many.map Prod.fst))

def tokens? : List Text → Except OptionsExit (List Token)
  | [] => .ok []
  | t :: rest =>
    if t = separator then .ok (.separator :: rest.map .word)
    else do
      let first ← classify? t
      return first :: (← tokens? rest)

def given (value : Text) : Given Text := if value = separator then .nothing else .value value

structure Collected where
  snapshot : Option (Given Text) := none
  bankroll : Option (Given Int) := none
  board : Bool := false
  extras : List Text := []

def Collected.take? (c : Collected) (flag : Flag) (value : Text) : Except OptionsExit Collected :=
  match flag with
  | .snapshot => .ok { c with snapshot := some (given value) }
  | .bankroll =>
    match given value with
    | .nothing => .ok { c with bankroll := some .nothing }
    | .value v =>
      match Text.integer? v with
      | .ok n => .ok { c with bankroll := some (.value n) }
      | .error _ => .error (.notInteger flag v)
  | .help => .error .help
  | .board => .ok { c with board := true }

-- Letters after the short option for help are short options too, and help is the only one. What
-- is left after the last of them would be its value, and help takes none.
def glued (letters : Text) : OptionsExit :=
  match letters.dropWhile (· == letterH) with
  | [] => .help
  | value => .ignoredValue .help value

def collect? (c : Collected) : List Token → Except OptionsExit Collected
  | [] => .ok c
  | .word t :: rest => collect? { c with extras := c.extras ++ [t] } rest
  | .separator :: rest => collect? { c with extras := c.extras ++ [separator] } rest
  | .unknown t :: rest => collect? { c with extras := c.extras ++ [t] } rest
  | .glued letters :: _ => .error (glued letters)
  | .option flag (some v) :: rest =>
    if flag.takesValue then do collect? (← c.take? flag v) rest else .error (.ignoredValue flag v)
  | .option flag none :: rest =>
    if flag.takesValue then
      match rest with
      | .word v :: later => do collect? (← c.take? flag v) later
      | _ => .error (.expectedValue flag)
    else do collect? (← c.take? flag []) rest

-- A missing observation is reported before arguments that nobody knows.
def parse? (arguments : List Text) : Except OptionsExit Options := do
  let c ← collect? {} (← tokens? arguments)
  match c.snapshot with
  | none => .error .missingSnapshot
  | some snapshot =>
    if c.extras = [] then return { snapshot, bankroll := c.bankroll, board := c.board }
    else .error (.unrecognized c.extras)

end Options
end Parimutuel
