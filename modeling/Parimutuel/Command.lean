import Parimutuel.Desk
import Parimutuel.Document
import Parimutuel.Feed
import Parimutuel.Json.Reader
import Parimutuel.Options
import Parimutuel.Path
import Parimutuel.Settings
import Parimutuel.Text.Utf8

namespace Parimutuel.Command

-- `usage` is the options' way to end; the others are crashes, which print nothing.
inductive Stop where
  | usage (exit : OptionsExit)
  | settings (e : Text.NumeralError)
  | level (e : Journal.LevelError)
  | noPath
  | file (path : Path) (problem : Path.Problem)
  | notText (e : Text.Utf8Error)
  | document (e : Json.ReadError)
  | failure (f : Failure)
  | unprintable
  deriving Repr

def Stop.message : Stop → Text
  | .usage exit => exit.message
  | .settings e => Text.ofString e.message
  | .level e => Text.ofString e.message
  | .noPath => Text.ofString "expected str, bytes or os.PathLike object, not list"
  | .file path problem => Text.ofString (problem.message path)
  | .notText e => Text.ofString e.message
  | .document e => Text.ofString e.message
  | .failure f => Text.ofString f.message
  | .unprintable => Text.ofString Json.Unsayable.tooLong.message

structure Outcome where
  exit : Nat
  out : String
  lines : List String
  deriving Repr, DecidableEq

structure Setup where
  options : Options
  settings : Settings
  filter : Journal.Filter
  deriving Repr, DecidableEq

def setup? (arguments : List Text) (env : Variables) : Except Stop Setup := do
  let options ← (Options.parse? arguments).mapError .usage
  let settings ← (Settings.read? env).mapError .settings
  let filter ← (Journal.configure? settings.logLevel settings.verbose).mapError .level
  let settings := match options.bankroll with
    | some (.value bankroll) => settings.withBankroll bankroll
    | some .nothing => settings.withBankroll 0
    | none => settings
  return { options, settings, filter }

def Setup.path? (s : Setup) : Except Stop Path :=
  match s.options.snapshot with
  | .value t => .ok (Path.ofText t)
  | .nothing => .error .noPath

-- A bankroll that was given as nothing is an empty list, which no strategy accepts.
def Setup.draft? (s : Setup) : Except Fault Draft := do
  let draft := (← s.settings.strategy?).drafted
  return if s.options.bankroll = some .nothing then { draft with bankroll := .list [] } else draft

-- A file without usable content is refused with a message, and everything else that is wrong ends
-- the command.
inductive Trouble where
  | refused (message : String)
  | stop (s : Stop)
  deriving Repr

def Trouble.ofFailure : Failure → Trouble
  | .refused message => .refused message
  | failure => .stop (.failure failure)

def document? (room : Nat) (bytes : List UInt8) : Except Trouble (List (Text × Json)) := do
  let text ← (Text.ofUtf8? bytes).mapError fun e => .stop (.notText e)
  match Json.parse? room (Text.foldLines text) with
  | .error (.malformed problem line column position) =>
    .error (.refused (Json.ReadError.malformed problem line column position).message)
  | .error e => .error (.stop (.document e))
  | .ok (.object members) => .ok members
  | .ok value => .error (.ofFailure ((Refusal.notObject value.kind).raised room))

-- The reward of the settings stands in where the observation has none.
def observation? (room : Nat) (settings : Settings) (members : List (Text × Json)) :
    Except Trouble Observation := do
  let board ← (Feed.read? room members (.int settings.skim)).mapError .ofFailure
  let reward := if (Json.member? members "reward_per_round").isSome then board.reward
    else settings.reward
  return { board with reward }.observed

def plan? (room : Nat) (setup : Setup) (bytes : List UInt8) : Except Trouble Round := do
  let members ← document? room bytes
  let observation ← observation? room setup.settings members
  let draft ← setup.draft?.mapError fun f => .stop (.failure (.fault f))
  (planObserved? room observation draft).mapError .ofFailure

def report? (setup : Setup) (round : Round) : Except Stop Json := do
  let plan := round.plan.document
  if setup.options.board then
    let board ← (BoardReport.of? round.board round.strategy.unitValue).mapError fun f =>
      .failure (.fault f)
    return .ofFields [("plan", plan), ("board", board.document)]
  else
    return .ofFields [("plan", plan)]

def printed (document : Json) : String := document.sortNames.indented 0 ++ "\n"

def answer? (room : Nat) (setup : Setup) (bytes : List UInt8) : Except Stop Outcome :=
  match plan? room setup bytes with
  | .error (.refused message) => .ok ⟨2, "", setup.filter.lines [.refused message]⟩
  | .error (.stop s) => .error s
  | .ok round => do
    let document ← report? setup round
    if document.hasLongInteger Text.digitLimit then .error .unprintable
    else
      let p := round.plan
      let last := Event.reported p.bets.length p.total p.bankroll (Text.toString p.reason)
      return ⟨0, printed document, setup.filter.lines (round.events ++ [last])⟩

-- The stack leaves `room` for values inside one another, both where they are read and where a message
-- shows them.
def run? (room : Nat) (arguments : List Text) (env : Variables) (files : Path → Option Entry) :
    Except Stop Outcome := do
  let setup ← setup? arguments env
  let path ← setup.path?
  answer? room setup (← (path.bytes? files).mapError (.file path))

end Parimutuel.Command
