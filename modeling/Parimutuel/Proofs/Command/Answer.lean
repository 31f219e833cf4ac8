import Mathlib
import Parimutuel.Proofs.Command.Setup
import Parimutuel.Proofs.Feed.Decision
import Parimutuel.Proofs.Json.Reading
import Parimutuel.Proofs.Planning.Course
import Parimutuel.Proofs.Pricing.Report

namespace Parimutuel

namespace Command

-- The bytes are UTF-8, and the document is an object.
def Holds (room : Nat) (bytes : List UInt8) (members : List (Text × Json)) : Prop :=
  ∃ text, Text.ofUtf8? bytes = .ok text ∧ Json.parse? room (Text.foldLines text) = .ok (.object members)

-- Bytes that are no text, a numeral that is too long, and containers too deep inside one another.
inductive Breaks (room : Nat) (bytes : List UInt8) : Stop → Prop where
  | notText {e : Text.Utf8Error} (decoded : Text.ofUtf8? bytes = .error e) : Breaks room bytes (.notText e)
  | numeral {text : Text} {e : Text.NumeralError} (decoded : Text.ofUtf8? bytes = .ok text)
      (read : Json.parse? room (Text.foldLines text) = .error (.numeral e)) :
      Breaks room bytes (.document (.numeral e))
  | tooDeep {text : Text} {container : Json.Container} (decoded : Text.ofUtf8? bytes = .ok text)
      (read : Json.parse? room (Text.foldLines text) = .error (.tooDeep container)) :
      Breaks room bytes (.document (.tooDeep container))

def Refused {α : Type} (result : Except Trouble α) : Prop := ∃ message, result = .error (.refused message)

variable {room : Nat}

theorem document?_cases (room : Nat) (bytes : List UInt8) :
    (∃ stop, document? room bytes = .error (.stop stop) ∧ Breaks room bytes stop) ∨
      (∃ members, document? room bytes = .ok members ∧ Holds room bytes members) ∨
      Refused (document? room bytes) := by
  unfold document?
  cases decoded : Text.ofUtf8? bytes with
  | error e => exact .inl ⟨.notText e, rfl, .notText decoded⟩
  | ok text =>
    simp only [Except.mapError, bind, Except.bind]
    cases read : Json.parse? room (Text.foldLines text) with
    | error e =>
      cases e with
      | malformed problem line column position => exact .inr (.inr ⟨_, rfl⟩)
      | numeral e => exact .inl ⟨_, rfl, .numeral decoded read⟩
      | tooDeep container => exact .inl ⟨_, rfl, .tooDeep decoded read⟩
    | ok value =>
      cases value with
      | object members => exact .inr (.inl ⟨members, rfl, text, decoded, read⟩)
      | _ => exact .inr (.inr ⟨_, rfl⟩)

theorem Breaks.document? {bytes : List UInt8} {stop : Stop} (breaks : Breaks room bytes stop) :
    document? room bytes = .error (.stop stop) := by
  cases breaks with
  | notText decoded => simp only [Command.document?, decoded, Except.mapError, bind, Except.bind]
  | numeral decoded read => simp only [Command.document?, decoded, read, Except.mapError, bind, Except.bind]
  | tooDeep decoded read => simp only [Command.document?, decoded, read, Except.mapError, bind, Except.bind]

theorem Holds.document? {bytes : List UInt8} {members : List (Text × Json)}
    (holds : Holds room bytes members) : document? room bytes = .ok members := by
  obtain ⟨text, decoded, read⟩ := holds
  simp only [Command.document?, decoded, read, Except.mapError, bind, Except.bind]

-- Whatever could be read can be shown as well.
theorem Holds.modest {bytes : List UInt8} {members : List (Text × Json)} (holds : Holds room bytes members) :
    ∀ m ∈ members, m.2.Modest room := by
  obtain ⟨text, -, read⟩ := holds
  cases Json.parse?_modest read with
  | object opened each => exact fun m member => (each m member).mono (Nat.sub_le room 1)

-- The reward of the settings stands in where the observation has none.
def rewarded (settings : Settings) (members : List (Text × Json)) (seen : Board) : Board :=
  { seen with
    reward := if (Json.member? members "reward_per_round").isSome then seen.reward else settings.reward }

-- The bytes hold an observation that is read as this board, and both the board and the strategy are valid.
structure Accepted (room : Nat) (settings : Settings) (s : Strategy) (bytes : List UInt8) (board : Board) :
    Prop where
  seen : ∃ members seen, Holds room bytes members ∧
    Feed.read? room members (.int settings.skim) = .ok seen ∧ board = rewarded settings members seen
  board : board.Valid
  strategy : s.Valid

theorem rewarded_valid {settings : Settings} (members : List (Text × Json)) {seen : Board}
    (valid : seen.Valid) (paid : 0 ≤ settings.reward) : (rewarded settings members seen).Valid := by
  refine { valid with reward_nonneg := ?_ }
  unfold rewarded
  split
  · exact valid.reward_nonneg
  · exact paid

section Plan

variable {setup : Setup} {s : Strategy} {bytes : List UInt8}

theorem plan?_holds {members : List (Text × Json)} {seen : Board} (drafted : setup.draft? = .ok s.drafted)
    (document : document? room bytes = .ok members)
    (read : Feed.read? room members (.int setup.settings.skim) = .ok seen) :
    plan? room setup bytes =
      (planObserved? room (rewarded setup.settings members seen).observed s.drafted).mapError .ofFailure := by
  simp only [plan?, document, observation?, read, drafted, Except.mapError, bind, Except.bind, pure,
    Except.pure]
  rfl

theorem Breaks.plan? {stop : Stop} (breaks : Breaks room bytes stop) :
    plan? room setup bytes = .error (.stop stop) := by
  rw [Command.plan?, breaks.document?]
  rfl

theorem Accepted.plan? {board : Board} (drafted : setup.draft? = .ok s.drafted)
    (accepted : Accepted room setup.settings s bytes board) :
    ∃ round, planObserved? room board.observed s.drafted = .ok round ∧ round.board = board ∧
      round.strategy = s ∧ plan? room setup bytes = .ok round := by
  obtain ⟨members, seen, holds, read, rfl⟩ := accepted.seen
  obtain ⟨round, run, board, strategy, -⟩ :=
    planObserved?_planned accepted.board.check?_observed accepted.strategy.check?_drafted
  refine ⟨round, run, board, strategy, ?_⟩
  rw [plan?_holds drafted holds.document? read, run]
  rfl

theorem plan?_refused (modest : setup.settings.Modest)
    (shown : Decides (Json.Modest room) fun room => s.drafted.check? room)
    (drafted : setup.draft? = .ok s.drafted) (whole : ¬ ∃ stop, Breaks room bytes stop)
    (rejected : ¬ ∃ board, Accepted room setup.settings s bytes board) :
    Refused (plan? room setup bytes) := by
  rcases document?_cases room bytes with ⟨stop, -, breaks⟩ | ⟨members, document, holds⟩ | ⟨message, refused⟩
  · exact absurd ⟨stop, breaks⟩ whole
  · have skim := modest.brief setup.settings.skim (by simp)
    rcases (Feed.read?_decides holds.modest skim).said with ⟨seen, read⟩ | ⟨message, refused⟩
    · have paid := modest.natural setup.settings.reward (by simp)
      have valid := rewarded_valid members (Feed.read?_eq_ok_iff.1 read).valid paid
      have invalid : ¬ s.Valid := fun strategy =>
        rejected ⟨_, ⟨members, seen, holds, read, rfl⟩, valid, strategy⟩
      obtain ⟨failure, failed⟩ : ∃ failure, s.drafted.check? room = .error failure :=
        Strategy.check?_error invalid
      rcases shown.said with ⟨other, passed⟩ | ⟨message, refused⟩
      · cases failed.symm.trans passed
      · refine ⟨message, ?_⟩
        rw [plan?_holds drafted document read, planObserved?, planBy?, valid.check?_observed, refused]
        rfl
    · refine ⟨message, ?_⟩
      simp only [plan?, document, observation?, refused, Except.mapError, bind, Except.bind]
      rfl
  · refine ⟨message, ?_⟩
    rw [plan?, refused]
    rfl

end Plan

def answered (board : Bool) (round : Round) (report : BoardReport) : Json :=
  .ofFields (("plan", round.plan.document) :: if board then [("board", report.document)] else [])

theorem answer?_planned {setup : Setup} {bytes : List UInt8} {round : Round} {report : BoardReport}
    (planned : plan? room setup bytes = .ok round)
    (reported : BoardReport.of? round.board round.strategy.unitValue = .ok report) :
    ∃ lines, answer? room setup bytes =
      if (answered setup.options.board round report).hasLongInteger 4300 then .error .unprintable
      else .ok ⟨0, printed (answered setup.options.board round report), lines⟩ := by
  have document : report? setup round = .ok (answered setup.options.board round report) := by
    unfold report? answered
    cases setup.options.board with
    | false => rfl
    | true => rw [reported]; rfl
  refine ⟨setup.filter.lines (round.events ++ [.reported round.plan.bets.length round.plan.total
    round.plan.bankroll (Text.toString round.plan.reason)]), ?_⟩
  simp only [answer?, planned, document, bind, Except.bind]
  rfl

theorem Accepted.answer? {setup : Setup} {s : Strategy} {bytes : List UInt8} {board : Board}
    (drafted : setup.draft? = .ok s.drafted) (accepted : Accepted room setup.settings s bytes board) :
    ∃ round report lines, planObserved? room board.observed s.drafted = .ok round ∧
      BoardReport.of? board s.unitValue = .ok report ∧
      answer? room setup bytes =
        if (answered setup.options.board round report).hasLongInteger 4300 then .error .unprintable
        else .ok ⟨0, printed (answered setup.options.board round report), lines⟩ := by
  obtain ⟨round, run, rfl, rfl, planned⟩ := accepted.plan? drafted
  have reported := BoardReport.of?_lines accepted.board _ accepted.strategy.unitValue_nonneg
  obtain ⟨lines, answer⟩ := answer?_planned planned reported
  exact ⟨round, _, lines, run, reported, answer⟩

theorem run?_answers (room : Nat) {c : Call} (plain : c.Plain) {env : Variables} (meant : Settings.Plain env)
    {files : Path → Option Entry} {bytes : List UInt8}
    (found : (Path.ofText c.file).bytes? files = .ok bytes) :
    ∃ base s, Settings.read? env = .ok base ∧ (c.settings base).strategy? = .ok s ∧
      (∀ stop, Breaks room bytes stop → run? room c.arguments env files = .error stop) ∧
      ((∃ lines, run? room c.arguments env files = .ok ⟨2, "", lines⟩) ↔
        (¬ ∃ stop, Breaks room bytes stop) ∧ ¬ ∃ board, Accepted room (c.settings base) s bytes board) ∧
      ∀ board, Accepted room (c.settings base) s bytes board →
        ∃ round report lines, planObserved? room board.observed s.drafted = .ok round ∧
          BoardReport.of? board s.unitValue = .ok report ∧
          run? room c.arguments env files =
            if (answered c.board round report).hasLongInteger 4300 then .error .unprintable
            else .ok ⟨0, printed (answered c.board round report), lines⟩ := by
  obtain ⟨base, filter, read, meant, ready⟩ := setup?_plain plain meant
  have modest := Call.settings_modest plain meant
  obtain ⟨s, derived, shown⟩ := modest.strategy?
  have drafted := c.draft?_eq filter derived
  have run : run? room c.arguments env files = answer? room ⟨c.options, c.settings base, filter⟩ bytes := by
    simp only [run?, ready, Setup.path?, Call.options, found, Except.mapError, bind, Except.bind]
  rw [run]
  refine ⟨base, s, read, derived, ?_, ?_, ?_⟩
  · intro stop breaks
    rw [answer?, breaks.plan?]
  · constructor
    · rintro ⟨lines, answer⟩
      constructor
      · rintro ⟨stop, breaks⟩
        rw [answer?, breaks.plan?] at answer
        cases answer
      · rintro ⟨board, accepted⟩
        obtain ⟨round, report, lines, -, -, planned⟩ := accepted.answer? drafted
        rw [planned] at answer
        split at answer <;> cases answer
    · rintro ⟨whole, rejected⟩
      obtain ⟨message, refused⟩ := plan?_refused modest (shown room) drafted whole rejected
      exact ⟨filter.lines [.refused message], by rw [answer?, refused]⟩
  · intro board accepted
    exact accepted.answer? drafted

-- A file in which one option has less on it than each of the others, read by a call that sets the bankroll.
def writtenBoard : Text :=
  Text.ofString "\x7b\"deployed\":[1,9,9,9,9,9,9,9,9,9,9,9,9,9,9,9,9,9,9,9,9,9,9,9,9],\"slots_left\":1\x7d"

def writtenFiles (_ : Path) : Option Entry := some (.file (writtenBoard.map Nat.toUInt8))

def writtenCall : Call := { file := Text.ofString "board.json", bankroll := some (Text.ofString "20", 20) }

def smallBets : Variables := [(Text.ofString "GRID_MIN_BET", Text.ofString "1")]

def writtenSeen : Board :=
  ⟨1 :: List.replicate 24 9, List.replicate 25 0, 1090, 1, true, 0⟩

def writtenStrategy : Strategy := ⟨20, 100000000, 1, 1, 800000000, 2, 60, 2⟩

theorem writtenCall_plain : writtenCall.Plain where
  file := rfl
  bankroll := by
    rintro amount ⟨⟩
    exact ⟨rfl, Text.integer?_eq_ok_iff.1 rfl⟩

theorem smallBets_plain : Settings.Plain smallBets where
  numbers := by
    intro name _ t found
    obtain ⟨before, after, same, -⟩ := List.lookup_eq_some_iff.1 found
    have inside : (Text.ofString name, t) ∈ smallBets := by
      rw [same]
      exact List.mem_append_right _ List.mem_cons_self
    have value : t = Text.ofString "1" := congrArg Prod.snd (List.mem_singleton.1 inside)
    rw [value]
    exact ⟨by decide, by decide, by decide⟩
  level := by
    intro t found
    have missing : Settings.lookup? smallBets "GRID_LOG_LEVEL" = none := rfl
    rw [missing] at found
    cases found

theorem writtenBoard_holds : Holds 2 (writtenBoard.map Nat.toUInt8)
    [(Text.ofString "deployed", .list ((1 :: List.replicate 24 9).map .int)),
      (Text.ofString "slots_left", .int 1)] :=
  ⟨writtenBoard, by cbv, by cbv⟩

theorem writtenPlan_short :
    (planObserved? 2 writtenSeen.observed writtenStrategy.drafted).toOption.map
      (fun round => round.plan.document.hasLongInteger 4300) = some false := by
  decide +kernel

theorem run?_answers_written : ∃ document lines,
    run? 2 writtenCall.arguments smallBets writtenFiles = .ok ⟨0, printed document, lines⟩ := by
  have found : (Path.ofText writtenCall.file).bytes? writtenFiles = .ok (writtenBoard.map Nat.toUInt8) := rfl
  obtain ⟨base, s, read, derived, -, -, planned⟩ := run?_answers 2 writtenCall_plain smallBets_plain found
  have settled : Settings.read? smallBets = .ok { minBet := 1 } := rfl
  rw [read] at settled
  cases settled
  have same : (writtenCall.settings { minBet := 1 }).strategy? = .ok writtenStrategy := rfl
  rw [derived] at same
  cases same
  have accepted : Accepted 2 (writtenCall.settings { minBet := 1 }) writtenStrategy
      (writtenBoard.map Nat.toUInt8) writtenSeen :=
    ⟨⟨_, writtenSeen, writtenBoard_holds, rfl, rfl⟩, by decide, by decide⟩
  obtain ⟨round, report, lines, run, -, answer⟩ := planned _ accepted
  have short : round.plan.document.hasLongInteger 4300 = false := by
    have known := writtenPlan_short
    rw [run] at known
    exact Option.some.inj known
  have brief : (answered writtenCall.board round report).hasLongInteger 4300 = false :=
    (Bool.or_false _).trans short
  rw [brief] at answer
  exact ⟨_, lines, answer⟩

-- Where the bytes are no text there is no answer, although the file is there and all else is in order.
theorem run?_crashes :
    (writtenCall.Plain ∧ Settings.Plain smallBets) ∧
      (Path.ofText writtenCall.file).bytes? (fun _ => some (.file [0xff])) = .ok [0xff] ∧
      run? 2 writtenCall.arguments smallBets (fun _ => some (.file [0xff])) =
        .error (.notText ⟨0, 1, 0xff, .badStart⟩) :=
  ⟨⟨writtenCall_plain, smallBets_plain⟩, rfl, rfl⟩

end Command
end Parimutuel
