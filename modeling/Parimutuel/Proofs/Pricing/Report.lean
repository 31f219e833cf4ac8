import Mathlib.Order.Bounds.Defs
import Parimutuel.BoardReport
import Parimutuel.Proofs.Acceptance
import Parimutuel.Proofs.Pricing.Summit
import Parimutuel.Proofs.Pricing.Threshold

namespace Parimutuel

namespace BoardReport

def line (m : Model) (i : Int) : OptionReport :=
  ⟨i, Model.takenAt m.board i, (m.quoteAt i).peak 0, (m.quoteAt i).value ((m.quoteAt i).peak 0)⟩

theorem row?_line {m : Model} (sound : m.Sound) {i : Int} (member : i ∈ options) :
    row? m i = .ok (line m i) := by
  simp only [row?, sound.optimum? member, sound.value? member, Model.taken?,
    Model.read_taken sound.board member, line, bind, Except.bind, pure, Except.pure]

-- On a valid board every option has its line, and of a strategy no line depends on anything but what a
-- reward token is worth.
theorem of?_lines {board : Board} (valid : board.Valid) (s : Strategy) (worth : 0 ≤ s.unitValue) :
    of? board s.unitValue = .ok ⟨options.map (line (Model.bare board s))⟩ := by
  let free : Strategy := { bankroll := 0, cap := 1, minBet := 1, unitValue := s.unitValue }
  have lines := mapM_ok options fun i member => row?_line (Model.bare_sound (s := free) valid worth) member
  rw [of?, Model.bare?_ok free valid]
  simp only [lines, bind, Except.bind, pure, Except.pure]
  rfl

end BoardReport

namespace Model

variable {m : Model} {board : Board} {strategy : Strategy} {holdings : Holdings} {i : Int}

theorem Sound.peaked (sound : m.Sound) (member : i ∈ options) (staked : 0 < takenAt m.board i)
    (apart : ¬ Surrounded m.board m.holdings i) :
    Peaked (m.quoteAt i).value ((m.quoteAt i).peak 0) := by
  obtain ⟨_, prize, cross⟩ := sound.quoteAt_nonneg member
  exact Quote.peaked staked prize cross (crossAt_lt sound.board member apart)

theorem not_surrounded_bare (board : Board) {i : Int} : ¬ Surrounded board Holdings.none i := by
  rintro ⟨_, owned⟩
  obtain ⟨j, known, other⟩ : ∃ j ∈ options, j ≠ i := by
    by_cases first : i = 0
    · exact ⟨1, by decide, by omega⟩
    · exact ⟨0, by decide, fun same => first same.symm⟩
  have held := (owned j known other).2
  rw [Holdings.ownAt_none] at held
  exact Int.lt_irrefl 0 held

end Model

-- What an option gains in the report, against the best of all stakes on it.
theorem BoardReport.line_near {board : Board} {s : Strategy} {i : Int} (valid : board.Valid)
    (worth : 0 ≤ s.unitValue) (member : i ∈ options) (staked : 0 < Model.takenAt board i) :
    ∃ top, IsGreatest {v | ∃ x, 0 ≤ x ∧ (Model.bare board s).value? i x = .ok v} top ∧
      (line (Model.bare board s) i).gain ≤ top ∧ top ≤ (line (Model.bare board s) i).gain + 1 := by
  have sound := Model.bare_sound (s := s) valid worth
  have peaked := sound.peaked member staked (Model.not_surrounded_bare board)
  have values : {v | ∃ x, 0 ≤ x ∧ (Model.bare board s).value? i x = .ok v} =
      ((Model.bare board s).quoteAt i).value '' Set.Ici 0 := by
    ext v
    constructor
    · rintro ⟨x, least, answered⟩
      rw [sound.value? member x] at answered
      exact ⟨x, least, Except.ok.inj answered⟩
    · rintro ⟨x, least, rfl⟩
      exact ⟨x, least, sound.value? member x⟩
  rw [values]
  have after := peaked.near _ (Int.le_trans peaked.best_nonneg (Int.le_of_lt (Int.lt_succ _)))
  refine ⟨_, peaked.isGreatest, Int.le_max_left _ _, Int.max_le.2 ⟨?_, after⟩⟩
  exact Int.le_of_lt (Int.lt_succ _)

theorem Model.value?_peaked {board : Board} {strategy : Strategy} {holdings : Holdings}
    (valid : board.Valid) (unitValue : 0 ≤ strategy.unitValue)
    (width : holdings.length = optionCount) (held : ∀ y ∈ holdings, 0 ≤ y) :
    ∃ (m bare : Model) (report : BoardReport) (value : Int → Int → Int) (best : Int → Int),
      price? board strategy holdings = .ok m ∧
      (∀ i ∈ options, m.optimum? i 0 = .ok (best i) ∧ ∀ x, m.value? i x = .ok (value i x)) ∧
      (∀ i ∈ options, 0 < takenAt board i → ¬ Surrounded board holdings i →
        Peaked (value i) (best i)) ∧
      (∀ i ∈ options, takenAt board i = 0 → AntitoneOn (value i) (Set.Ici 1) ∧
        (0 < strategy.minBet →
          IsGreatest (value i '' Set.Ici strategy.minBet) (value i strategy.minBet))) ∧
      BoardReport.of? board strategy.unitValue = .ok report ∧ bare? board strategy = .ok bare ∧
      report.rows.map OptionReport.option = options ∧
      ∀ row ∈ report.rows, 0 < takenAt board row.option →
        ∃ top, IsGreatest {v | ∃ x, 0 ≤ x ∧ bare.value? row.option x = .ok v} top ∧
          row.gain ≤ top ∧ top ≤ row.gain + 1 := by
  have sound := priced_sound valid unitValue width held
  refine ⟨_, _, _, fun i => ((priced board strategy holdings).quoteAt i).value,
    fun i => ((priced board strategy holdings).quoteAt i).peak 0, price?_ok strategy valid width,
    fun i member => ⟨sound.optimum? member 0, sound.value? member⟩,
    fun i member staked apart => sound.peaked member staked apart, ?_,
    BoardReport.of?_lines valid strategy unitValue, bare?_ok strategy valid, ?_, ?_⟩
  · intro i member unstaked
    have falls : AntitoneOn ((priced board strategy holdings).quoteAt i).value (Set.Ici 1) :=
      fun x positive y _ order =>
        Quote.value_antitone_of_unstaked unstaked (sound.cross_le member) positive order
    refine ⟨falls, fun smallest => ⟨Set.mem_image_of_mem _ Set.self_mem_Ici, ?_⟩⟩
    rintro _ ⟨x, bet, rfl⟩
    exact falls smallest (Int.le_trans smallest bet) bet
  · rw [List.map_map]
    exact List.map_id options
  · intro row entry staked
    obtain ⟨i, member, rfl⟩ := List.mem_map.1 entry
    exact BoardReport.line_near valid unitValue member staked

-- All options but two are one's own, and nothing is skimmed: option 1 alone keeps option 0 from being
-- surrounded.
def besieged : Board := ⟨6 :: 542 :: List.replicate 23 0, List.replicate 25 0, 0, 1, true, 0⟩

def besiegers : Holdings := 0 :: 0 :: List.replicate 23 10

theorem Model.value?_peaked_besieged :
    ∃ (m bare : Model) (report : BoardReport) (value : Int → Int → Int) (best : Int → Int),
      price? besieged ⟨0, 1, 3, 1, 0, 2, 60, 2⟩ besiegers = .ok m ∧
      m.optimum? 0 0 = .ok (best 0) ∧ m.value? 0 62 = .ok (value 0 62) ∧ Peaked (value 0) (best 0) ∧
      IsGreatest (value 2 '' Set.Ici 3) (value 2 3) ∧
      BoardReport.of? besieged 0 = .ok report ∧ bare? besieged ⟨0, 1, 3, 1, 0, 2, 60, 2⟩ = .ok bare ∧
      ∃ row ∈ report.rows, row.option = 1 ∧
        ∃ top, IsGreatest {v | ∃ x, 0 ≤ x ∧ bare.value? 1 x = .ok v} top ∧ top ≤ row.gain + 1 := by
  obtain ⟨m, bare, report, value, best, pricing, answers, staked, unstaked, reported, priced, rows,
    near⟩ := @value?_peaked besieged ⟨0, 1, 3, 1, 0, 2, 60, 2⟩ besiegers (by decide) (by decide)
    (by decide) (by decide)
  obtain ⟨peak, values⟩ := answers 0 (by decide)
  have free : ¬ Surrounded besieged besiegers 0 := by
    rintro ⟨_, owned⟩
    have taken : takenAt besieged 1 = 0 := (owned 1 (by decide) (by decide)).1
    cases taken
  have second : (1 : Int) ∈ report.rows.map OptionReport.option := by
    rw [rows]
    decide
  obtain ⟨row, entry, named⟩ := List.mem_map.1 second
  obtain ⟨top, greatest, _, close⟩ := near row entry (by rw [named]; decide)
  rw [named] at greatest
  exact ⟨m, bare, report, value, best, pricing, peak, values 62, staked 0 (by decide) (by decide) free,
    (unstaked 2 (by decide) (by decide)).2 (by decide), reported, priced, row, entry, named, top,
    greatest, close⟩

end Parimutuel
