import Parimutuel.Planner
import Parimutuel.Text.Quoted

namespace Parimutuel

inductive Level where
  | debug
  | info
  | warning
  | error
  deriving Repr, DecidableEq

def Level.severity : Level → Nat
  | .debug => 10
  | .info => 20
  | .warning => 30
  | .error => 40

def Level.word : Level → String
  | .debug => "DEBUG"
  | .info => "INFO"
  | .warning => "WARNING"
  | .error => "ERROR"

inductive Channel where
  | screen
  | search
  | snap
  | planner
  | command
  deriving Repr, DecidableEq

def Channel.name : Channel → String
  | .screen => "grid_bot.prefilter"
  | .search => "grid_bot.lambda_solver"
  | .snap => "grid_bot.snapper"
  | .planner => "grid_bot.planner"
  | .command => "grid_bot.main"

def Channel.chatty : List Channel := [.screen, .search, .snap]

inductive Event where
  | screened (kept : List Int)
  | saturated (aggregate bankroll : Int)
  | searched (price aggregate bankroll : Int) (iterations : Nat) (converged : Bool)
  | unbracketed (bankroll : Int)
  | funded (options : List Int)
  | exhausted (price aggregate bankroll : Int)
  | rejected (reasons : List (Int × Rejection))
  | planned (bets : Nat) (total bankroll expected price : Int)
  | emptyRound (reason : String) (remaining : Int)
  | plannedRound (bets : Nat) (total expected : Int) (converged : Bool)
  | refused (message : String)
  | reported (bets : Nat) (total bankroll : Int) (reason : String)
  deriving Repr, DecidableEq

namespace Event

def level : Event → Level
  | .screened .. | .saturated .. | .searched .. | .funded .. | .rejected .. | .planned .. => .debug
  | .unbracketed .. | .exhausted .. => .warning
  | .emptyRound .. | .plannedRound .. | .reported .. => .info
  | .refused .. => .error

def channel : Event → Channel
  | .screened .. => .screen
  | .saturated .. | .searched .. | .unbracketed .. => .search
  | .rejected .. => .snap
  | .funded .. | .exhausted .. | .planned .. | .emptyRound .. | .plannedRound .. => .planner
  | .refused .. | .reported .. => .command

def listed (row : List Int) : String := ", ".intercalate (row.map toString)

def tuple : List Int → String
  | [i] => "(" ++ toString i ++ ",)"
  | row => "(" ++ listed row ++ ")"

def truth (b : Bool) : String := if b then "True" else "False"

def reasons (dropped : List (Int × Rejection)) : String :=
  let entry := fun (p : Int × Rejection) =>
    toString p.1 ++ ": " ++ Text.quoted (Text.ofString p.2.word)
  "\x7b" ++ ", ".intercalate (dropped.map entry) ++ "\x7d"

def message : Event → String
  | .screened kept =>
    "prefilter kept " ++ toString kept.length ++ "/" ++ toString optionCount ++ " options: "
      ++ tuple kept
  | .saturated aggregate bankroll =>
    "lambda solver saturated at lam=0 aggregate=" ++ toString aggregate ++ " bankroll="
      ++ toString bankroll
  | .searched price aggregate bankroll iterations converged =>
    "lambda solver lam=" ++ toString price ++ " aggregate=" ++ toString aggregate ++ " bankroll="
      ++ toString bankroll ++ " iterations=" ++ toString iterations ++ " converged="
      ++ truth converged
  | .unbracketed bankroll => "lambda solver could not bracket bankroll=" ++ toString bankroll
  | .funded options => "funded unstaked options at min_bet: [" ++ listed options ++ "]"
  | .exhausted price aggregate bankroll =>
    "lambda solver hit its iteration budget: lam=" ++ toString price ++ " aggregate="
      ++ toString aggregate ++ " bankroll=" ++ toString bankroll
  | .rejected dropped => "snapper rejected " ++ reasons dropped
  | .planned bets total bankroll expected price =>
    "plan options=" ++ toString bets ++ " total=" ++ toString total ++ " bankroll="
      ++ toString bankroll ++ " ev=" ++ toString expected ++ " lam=" ++ toString price
  | .emptyRound reason remaining =>
    "empty plan reason=" ++ reason ++ " remaining=" ++ toString remaining
  | .plannedRound bets total expected converged =>
    "plan options=" ++ toString bets ++ " total=" ++ toString total ++ " ev=" ++ toString expected
      ++ " converged=" ++ truth converged
  | .refused message => "invalid parameters: " ++ message
  | .reported bets total bankroll reason =>
    "planned options=" ++ toString bets ++ " total=" ++ toString total ++ " bankroll="
      ++ toString bankroll ++ " reason=" ++ (if reason = "" then "-" else reason)

def line (e : Event) : String :=
  e.level.word ++ " | " ++ e.channel.name ++ " | " ++ e.message

end Event

-- What one search says of itself; an idle one says nothing.
def Solution.events (s : Solution) (bankroll : Int) : List Event :=
  match s.ending with
  | .idle => []
  | .saturated => [.saturated s.aggregate bankroll]
  | .searched => [.searched s.price s.aggregate bankroll s.iterations s.converged]
  | .unbracketed => [.unbracketed bankroll]

def Snapped.events (s : Snapped) : List Event :=
  if s.rejected = [] then [] else [.rejected s.rejected]

def Trace.events (t : Trace) (bankroll : Int) : List Event :=
  [.screened t.candidates]
    ++ (if t.funded = [] then [] else [.funded t.funded.sorted.numbers])
    ++ t.solutions.flatMap (·.events t.budget)
    ++ (if t.chosen.converged then []
      else [.exhausted t.chosen.price t.chosen.aggregate t.budget])
    ++ t.snapped.events
    ++ [.planned t.bets.length (t.plan bankroll).total bankroll t.expected t.chosen.price]

def Round.events (r : Round) : List Event :=
  match r.course with
  | .idle _ => []
  | .hopeless => [.screened []]
  | .full t => t.events r.strategy.bankroll

namespace Journal

-- The least severity that gets through: `root` for every channel, except that the chatty
-- channels have their own where that is not zero.
structure Filter where
  root : Nat
  chatty : Nat
  deriving Repr, DecidableEq

def Filter.passes (f : Filter) (e : Event) : Bool :=
  let least := if e.channel ∈ Channel.chatty ∧ f.chatty ≠ 0 then f.chatty else f.root
  least ≤ e.level.severity

def Filter.lines (f : Filter) (events : List Event) : List String :=
  (events.filter f.passes).map Event.line

def levelNames : List (Text × Nat) :=
  [("DEBUG", 10), ("INFO", 20), ("WARNING", 30), ("WARN", 30), ("ERROR", 40), ("CRITICAL", 50),
    ("FATAL", 50), ("NOTSET", 0)].map fun p => (Text.ofString p.1, p.2)

-- Capital letters, as far as the names below are concerned: besides the ASCII letters, the dotless
-- i, the long s and two ligatures have theirs among them.
def capital (c : Nat) : Text :=
  if 0x61 ≤ c ∧ c ≤ 0x7a then [c - 0x20]
  else if c = 0x131 then [0x49]
  else if c = 0x17f then [0x53]
  else if c = 0xfb05 ∨ c = 0xfb06 then [0x53, 0x54]
  else [c]

-- Two names belong to the layout of lines and are no levels: that of the usual layout, and that
-- of the table of layouts.
def layoutName : Text := Text.ofString "BASIC_FORMAT"
def layoutsName : Text := Text.ofString "_STYLES"

inductive LevelError where
  | isLayout
  | isLayouts
  deriving Repr, DecidableEq

def LevelError.message : LevelError → String
  | .isLayout => "Unknown level: '%(levelname)s:%(name)s:%(message)s'"
  | .isLayouts =>
    "Level not an integer or a valid string: "
      ++ "\x7b'%': (<class 'logging.PercentStyle'>, '%(levelname)s:%(name)s:%(message)s'), "
      ++ "'\x7b': (<class 'logging.StrFormatStyle'>, "
      ++ "'\x7blevelname\x7d:\x7bname\x7d:\x7bmessage\x7d'), "
      ++ "'$': (<class 'logging.StringTemplateStyle'>, "
      ++ "'$\x7blevelname\x7d:$\x7bname\x7d:$\x7bmessage\x7d')\x7d"

-- A name nobody knows stands for INFO. The chatty channels are held at INFO unless the search
-- shall be heard.
def configure? (level : Text) (verbose : Bool) : Except LevelError Filter :=
  let name := level.flatMap capital
  if name = layoutName then .error .isLayout
  else if name = layoutsName then .error .isLayouts
  else .ok ⟨(levelNames.lookup name).getD Level.info.severity,
    if verbose then 0 else Level.info.severity⟩

end Journal
end Parimutuel
