import Parimutuel.Unchecked.Agreement.Appraisal
import Parimutuel.Unchecked.Report

namespace Parimutuel

def OptionReport.stated (r : OptionReport) : StatedRow :=
  ⟨r.option, .int r.taken, .int r.optimum, .int r.gain, r.pays⟩

def BoardReport.stated (r : BoardReport) : StatedReport := ⟨r.rows.map OptionReport.stated⟩

namespace StatedReport

theorem row?_appraisal (m : Model) (lengths : m.prizes.length = m.crosses.length) (i : Int) :
    row? m.appraisal i = ((BoardReport.row? m i).map OptionReport.stated).mapError .fault := by
  simp only [row?, BoardReport.row?, Appraisal.optimum?_appraisal m lengths, bind, Except.bind]
  cases m.optimum? i 0 with
  | error fault => rfl
  | ok optimum =>
    simp only [Json.ofInt?_ok, Appraisal.value?_appraisal m lengths]
    cases m.value? i optimum with
    | error fault => rfl
    | ok gain =>
      simp only [Json.ofInt?_ok, Appraisal.taken?_appraisal]
      cases m.taken? i <;> rfl

theorem of?_report (board : Board) (unitValue : Int) :
    of? board.observed (.int unitValue) =
      ((BoardReport.of? board unitValue).map BoardReport.stated).mapError .fault := by
  let free : Strategy := { bankroll := 0, cap := 1, minBet := 1, unitValue }
  have priced : Appraisal.bare? board.observed free.drafted =
      ((Model.bare? board free).map Model.appraisal).mapError .fault :=
    Appraisal.of?_observed board free Holdings.none
  change (Appraisal.bare? board.observed free.drafted >>= fun a => do
    return (⟨← options.mapM (row? a)⟩ : StatedReport)) = _
  simp only [BoardReport.of?, priced, bind, Except.bind]
  cases model : Model.bare? board free with
  | error fault => rfl
  | ok m =>
    obtain ⟨prizes, crosses⟩ := Model.price?_lengths model
    have rows := Appraisal.mapM_lifted OptionReport.stated options
      (row?_appraisal m (prizes.trans crosses.symm))
    simp only [Except.map, mapError_ok, rows]
    cases options.mapM (BoardReport.row? m) <;> rfl

theorem document?_stated (r : BoardReport) : r.stated.document? = .ok r.document := by
  have paying : r.stated.rows.filter StatedRow.pays = r.paying.map OptionReport.stated := by
    rw [BoardReport.stated, List.filter_map]
    rfl
  have optima : (r.paying.map OptionReport.stated).map StatedRow.optimum =
      (r.paying.map OptionReport.optimum).map Json.int := by
    rw [List.map_map, List.map_map]
    rfl
  have gains : (r.paying.map OptionReport.stated).map StatedRow.gain =
      (r.paying.map OptionReport.gain).map Json.int := by
    rw [List.map_map, List.map_map]
    rfl
  have rows : r.stated.rows.map StatedRow.document = r.rows.map OptionReport.document := by
    rw [BoardReport.stated, List.map_map]
    rfl
  simp only [document?, paying, optima, gains, rows, Json.sum?_int, bind, Except.bind,
    List.length_map]
  rfl

end StatedReport
end Parimutuel
