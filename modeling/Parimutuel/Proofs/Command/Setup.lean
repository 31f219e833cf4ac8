import Parimutuel.Command
import Parimutuel.Proofs.Decision
import Parimutuel.Proofs.Fee

namespace Parimutuel

namespace Settings

def numberNames : List String := names.filter (· ∉ ["GRID_LOG_LEVEL", "GRID_VERBOSE_SOLVER"])

-- Variables as they are meant to be set. The level may be written in small letters.
structure Plain (env : Variables) : Prop where
  numbers : ∀ name ∈ numberNames, ∀ t, lookup? env name = some t → Text.PlainNumeral t
  level : ∀ t, lookup? env "GRID_LOG_LEVEL" = some t →
    t.flatMap Journal.capital ∈ Journal.levelNames.map Prod.fst

variable {env : Variables} {name : String}

-- Settings that leave nothing negative, save perhaps the bankroll, and nothing long that a refusal could
-- show.
structure Modest (s : Settings) : Prop where
  rate : 0 ≤ s.fees.bps
  natural : ∀ n ∈ [s.unitValue, s.threshold, s.iterations, s.passes, s.reward], 0 ≤ n
  brief : ∀ n ∈ [s.bankroll, s.skim, s.cap, s.minBet, s.tick], Text.Brief n

theorem optional?_plain (plain : ∀ t, lookup? env name = some t → Text.PlainNumeral t) :
    ∃ n, optional? env name = .ok n ∧ ∀ k ∈ n, 0 ≤ k ∧ Text.Brief k := by
  unfold optional?
  cases found : lookup? env name with
  | none => exact ⟨none, rfl, nofun⟩
  | some t =>
    have numeral := plain t found
    obtain ⟨n, read⟩ := numeral.integer?
    refine ⟨some (n : Int), ?_, ?_⟩
    · simp only [numeral.strip, numeral.nonempty, if_false, numeral.ungrouped, read, Except.map]
    · rintro k ⟨⟩
      exact ⟨Int.natCast_nonneg n, (Text.integer?_eq_ok_iff.1 read).brief⟩

theorem number?_plain (plain : ∀ t, lookup? env name = some t → Text.PlainNumeral t) {default : Int}
    (small : 0 ≤ default ∧ default.natAbs < Nat.pow 10 10) :
    ∃ n, number? env name default = .ok n ∧ 0 ≤ n ∧ Text.Brief n := by
  obtain ⟨n, read, known⟩ := optional?_plain plain
  refine ⟨n.getD default, by rw [number?, read]; rfl, ?_⟩
  cases n with
  | none => exact ⟨small.1, Text.lt_pow_of_le small.2 (by decide)⟩
  | some k => exact known k rfl

theorem read?_plain (plain : Plain env) :
    ∃ s, read? env = .ok s ∧ s.Modest ∧
      s.logLevel.flatMap Journal.capital ∈ Journal.levelNames.map Prod.fst := by
  have number (name : String) (known : name ∈ numberNames) (default : Int)
      (small : 0 ≤ default ∧ default.natAbs < Nat.pow 10 10) :
      ∃ n, number? env name default = .ok n ∧ 0 ≤ n ∧ Text.Brief n :=
    number?_plain (plain.numbers name known) small
  obtain ⟨bankroll, bankrollRead, -, money⟩ := number "GRID_BANKROLL" (by decide) 0 (by decide)
  obtain ⟨gross, grossRead, -⟩ := optional?_plain (plain.numbers "GRID_GROSS_BALANCE" (by decide))
  obtain ⟨cap, capRead, -, most⟩ := number "GRID_MAX_PER_OPTION" (by decide) 100000000 (by decide)
  obtain ⟨minBet, minBetRead, -, least⟩ := number "GRID_MIN_BET" (by decide) 10000 (by decide)
  obtain ⟨tick, tickRead, -, step⟩ := number "GRID_TICK_SIZE" (by decide) 1 (by decide)
  obtain ⟨unitValue, unitRead, worth, -⟩ :=
    number "GRID_UNIT_VALUE_RATIO" (by decide) 800000000 (by decide)
  obtain ⟨threshold, thresholdRead, wait, -⟩ := number "GRID_DEADLINE_THRESHOLD" (by decide) 2 (by decide)
  obtain ⟨iterations, iterationsRead, halvings, -⟩ :=
    number "GRID_SOLVER_MAX_ITERATIONS" (by decide) 60 (by decide)
  obtain ⟨passes, passesRead, more, -⟩ := number "GRID_POOL_REFINEMENT_PASSES" (by decide) 2 (by decide)
  obtain ⟨skim, skimRead, -, share⟩ := number "GRID_POOL_SKIM_BPS" (by decide) defaultSkim (by decide)
  obtain ⟨reward, rewardRead, paid, -⟩ := number "GRID_REWARD_PER_ROUND" (by decide) 0 (by decide)
  obtain ⟨flat, flatRead, -⟩ := number "GRID_FLAT_FEE" (by decide) 0 (by decide)
  obtain ⟨bps, bpsRead, rate, -⟩ := number "GRID_FEE_BPS" (by decide) 0 (by decide)
  obtain ⟨fixed, fixedRead, -⟩ := number "GRID_PROTOCOL_FEE" (by decide) 500 (by decide)
  refine ⟨⟨(lookup? env "GRID_LOG_LEVEL").getD (Text.ofString "INFO"), yes env "GRID_VERBOSE_SOLVER",
    bankroll, gross, cap, minBet, tick, unitValue, threshold, iterations, passes, skim, reward,
    ⟨flat, bps, fixed⟩⟩, ?_, ⟨rate, ?_, ?_⟩, ?_⟩
  · simp only [read?, bankrollRead, grossRead, capRead, minBetRead, tickRead, unitRead, thresholdRead,
      iterationsRead, passesRead, skimRead, rewardRead, flatRead, bpsRead, fixedRead, bind, Except.bind, pure,
      Except.pure]
  · simp only [List.forall_mem_cons, List.not_mem_nil, false_imp_iff, implies_true, and_true]
    exact ⟨worth, wait, halvings, more, paid⟩
  · simp only [List.forall_mem_cons, List.not_mem_nil, false_imp_iff, implies_true, and_true]
    exact ⟨money, share, most, least, step⟩
  · have standard : (Text.ofString "INFO").flatMap Journal.capital ∈ Journal.levelNames.map Prod.fst := by
      decide
    cases found : lookup? env "GRID_LOG_LEVEL" with
    | none => exact standard
    | some t => exact plain.level t found

-- What fees leave of a balance is never negative.
theorem Modest.bankroll? {s : Settings} (modest : s.Modest) :
    ∃ n, s.bankroll? = .ok n ∧ (Text.Brief n ∨ 0 ≤ n) := by
  unfold Settings.bankroll?
  cases s.gross with
  | none => exact ⟨s.bankroll, rfl, .inl (modest.brief _ List.mem_cons_self)⟩
  | some gross =>
    have weight : 0 < bpsScale + s.fees.bps := Int.add_pos_of_pos_of_nonneg (by decide) modest.rate
    obtain ⟨n, net, -⟩ := Fee.Schedule.net?_fits weight gross
    exact ⟨n, net, .inr (Fee.Schedule.net?_nonneg weight net)⟩

theorem Modest.strategy? {s : Settings} (modest : s.Modest) :
    ∃ strategy, s.strategy? = .ok strategy ∧
      ∀ room, Decides (Json.Modest room) fun room => strategy.drafted.check? room := by
  obtain ⟨bankroll, left, known⟩ := modest.bankroll?
  refine ⟨⟨bankroll, s.cap, s.minBet, s.tick, s.unitValue, s.threshold, s.iterations, s.passes⟩,
    by rw [Settings.strategy?, left]; rfl, fun room => ?_⟩
  have natural := modest.natural
  have brief := modest.brief
  simp only [List.forall_mem_cons, List.not_mem_nil, false_imp_iff, implies_true, and_true] at natural brief
  obtain ⟨unitValue, threshold, iterations, passes, -⟩ := natural
  obtain ⟨-, -, cap, minBet, tick⟩ := brief
  refine Draft.check?_decides ?_ ?_
  · simp only [Strategy.drafted, List.forall_mem_cons, List.not_mem_nil, false_imp_iff, implies_true,
      and_true]
    exact ⟨.of_wrong known, .of_wrong (.inr unitValue), .of_wrong (.inr threshold), .of_wrong (.inr passes),
      .of_wrong (.inr iterations)⟩
  · simp only [Strategy.drafted, List.forall_mem_cons, List.not_mem_nil, false_imp_iff, implies_true,
      and_true]
    exact ⟨.int tick, .int minBet, .int cap⟩

end Settings

theorem Journal.configure?_named {level : Text}
    (known : level.flatMap capital ∈ levelNames.map Prod.fst) (verbose : Bool) :
    ∃ filter, configure? level verbose = .ok filter := by
  have name : ∀ t ∈ levelNames.map Prod.fst, t ≠ layoutName ∧ t ≠ layoutsName := by decide
  obtain ⟨layout, layouts⟩ := name _ known
  rw [configure?, if_neg layout, if_neg layouts]
  exact ⟨_, rfl⟩

namespace Options

theorem tokens?_word {t : Text} (rest : List Text) (named : classify? t = .ok (.word t)) :
    tokens? (t :: rest) = (tokens? rest).map (.word t :: ·) := by
  have other : t ≠ separator := by
    rintro rfl
    cases named
  rw [tokens?, if_neg other, named]
  cases tokens? rest <;> rfl

theorem tokens?_option {t : Text} {flag : Flag} (rest : List Text) (other : t ≠ separator)
    (known : classify? t = .ok (.option flag none)) :
    tokens? (t :: rest) = (tokens? rest).map (.option flag none :: ·) := by
  rw [tokens?, if_neg other, known]
  cases tokens? rest <;> rfl

theorem given_word {t : Text} (named : classify? t = .ok (.word t)) : given t = .value t := by
  have other : t ≠ separator := by
    rintro rfl
    cases named
  exact if_neg other

end Options

namespace Command

-- A command line: a file, perhaps a bankroll as it is written and what it is, and whether the report
-- is wanted.
structure Call where
  file : Text
  bankroll : Option (Text × Int) := none
  board : Bool := false

namespace Call

def arguments (c : Call) : List Text :=
  [Text.ofString "--snapshot", c.file] ++
    (match c.bankroll with
      | some amount => [Text.ofString "--bankroll", amount.1]
      | none => []) ++
    if c.board then [Text.ofString "--board"] else []

-- Neither the file nor the bankroll can be taken for an option, and the bankroll is a numeral.
structure Plain (c : Call) : Prop where
  file : Options.classify? c.file = .ok (.word c.file)
  bankroll : ∀ amount ∈ c.bankroll,
    Options.classify? amount.1 = .ok (.word amount.1) ∧ Text.Numeral amount.1 amount.2

def options (c : Call) : Options := ⟨.value c.file, c.bankroll.map fun amount => .value amount.2, c.board⟩

def settings (c : Call) (s : Settings) : Settings :=
  match c.bankroll with
  | some amount => s.withBankroll amount.2
  | none => s

def tokens (c : Call) : List Options.Token :=
  [.option .snapshot none, .word c.file] ++
    (match c.bankroll with
      | some amount => [.option .bankroll none, .word amount.1]
      | none => []) ++
    if c.board then [.option .board none] else []

theorem tokens?_arguments {c : Call} (plain : c.Plain) : Options.tokens? c.arguments = .ok c.tokens := by
  obtain ⟨file, bankroll, board⟩ := c
  have wanted : Options.tokens? (if board then [Text.ofString "--board"] else []) =
      .ok (if board then [.option .board none] else []) := by
    cases board <;> rfl
  have snapshot (rest : List Text) : Options.tokens? (Text.ofString "--snapshot" :: rest) =
      (Options.tokens? rest).map (.option .snapshot none :: ·) :=
    Options.tokens?_option rest (by decide) rfl
  have money (rest : List Text) : Options.tokens? (Text.ofString "--bankroll" :: rest) =
      (Options.tokens? rest).map (.option .bankroll none :: ·) :=
    Options.tokens?_option rest (by decide) rfl
  have named (rest : List Text) := Options.tokens?_word rest plain.file
  cases bankroll with
  | none =>
    simp only [arguments, tokens, List.append_nil, List.cons_append, List.nil_append, snapshot, named, wanted,
      Except.map]
  | some amount =>
    have written (rest : List Text) := Options.tokens?_word rest (plain.bankroll amount rfl).1
    simp only [arguments, tokens, List.cons_append, List.nil_append, snapshot, named, money, written, wanted,
      Except.map]

theorem parse?_arguments {c : Call} (plain : c.Plain) : Options.parse? c.arguments = .ok c.options := by
  rw [Options.parse?, tokens?_arguments plain]
  obtain ⟨file, bankroll, board⟩ := c
  have named := Options.given_word plain.file
  cases bankroll with
  | none =>
    cases board <;>
      simp [tokens, options, Options.collect?, Options.Collected.take?, Flag.takesValue, named, bind,
        Except.bind, pure, Except.pure]
  | some amount =>
    obtain ⟨word, numeral⟩ := plain.bankroll amount rfl
    have read := Text.integer?_eq_ok_iff.2 numeral
    have written := Options.given_word word
    cases board <;>
      simp [tokens, options, Options.collect?, Options.Collected.take?, Flag.takesValue, named, written,
        read, bind, Except.bind, pure, Except.pure]

theorem settings_modest {c : Call} (plain : c.Plain) {base : Settings} (modest : base.Modest) :
    (c.settings base).Modest := by
  unfold settings
  cases given : c.bankroll with
  | none => exact modest
  | some amount =>
    have numeral := (plain.bankroll amount given).2
    exact ⟨modest.rate, modest.natural, List.forall_mem_cons.2 ⟨numeral.brief,
      fun n member => modest.brief n (List.mem_cons_of_mem _ member)⟩⟩

-- A bankroll that was given is one, so that the draft is the strategy.
theorem draft?_eq (c : Call) {settings : Settings} (filter : Journal.Filter) {s : Strategy}
    (derived : settings.strategy? = .ok s) :
    Setup.draft? ⟨c.options, settings, filter⟩ = .ok s.drafted := by
  have given : c.options.bankroll ≠ some .nothing := by
    unfold options
    cases c.bankroll with
    | none => exact nofun
    | some amount => exact nofun
  simp only [Setup.draft?, derived, if_neg given, bind, Except.bind, pure, Except.pure]

end Call

theorem setup?_plain {c : Call} (plain : c.Plain) {env : Variables} (meant : Settings.Plain env) :
    ∃ base filter, Settings.read? env = .ok base ∧ base.Modest ∧
      setup? c.arguments env = .ok ⟨c.options, c.settings base, filter⟩ := by
  obtain ⟨base, read, modest, level⟩ := Settings.read?_plain meant
  obtain ⟨filter, configured⟩ := Journal.configure?_named level base.verbose
  refine ⟨base, filter, read, modest, ?_⟩
  simp only [setup?, Call.parse?_arguments plain, read, configured, Except.mapError, bind, Except.bind, pure,
    Except.pure, Call.options, Call.settings]
  cases c.bankroll <;> rfl

end Command
end Parimutuel
