import Mathlib.Data.List.Basic
import Parimutuel.Observation

namespace Parimutuel

theorem bind_eq_ok_iff {ε α β : Type} {x : Except ε α} {f : α → Except ε β} {b : β} :
    (x >>= f) = .ok b ↔ ∃ a, x = .ok a ∧ f a = .ok b := by
  constructor
  · exact bind_ok
  · rintro ⟨a, known, run⟩
    rw [known]
    exact run

variable {room : Nat}

theorem require?_of {condition : Prop} [Decidable condition] (refusal : Refusal)
    (holds : condition) : require? room condition refusal = .ok () := if_pos holds

theorem natural?_int (field : String) {n : Int} (least : 0 ≤ n) :
    natural? room field (.int n) = .ok n := if_neg (Int.not_lt.2 least)

theorem positive?_int (field : String) {n : Int} (least : 0 < n) :
    positive? room field (.int n) = .ok n := by
  have nonzero : n ≠ 0 := Int.ne_of_gt least
  simp only [positive?, natural?_int field (Int.le_of_lt least), require?_of _ nonzero, bind,
    Except.bind, pure, Except.pure]

theorem naturals?_ints (field : String) (i : Nat) {row : List Int} (nonneg : ∀ n ∈ row, 0 ≤ n) :
    naturals? room field i (row.map .int) = .ok row := by
  induction row generalizing i with
  | nil => rfl
  | cons n rest ih =>
    have first : natural? room (entryName field i) (.int n) = .ok n :=
      natural?_int _ (nonneg n List.mem_cons_self)
    have others := ih (i + 1) fun k member => nonneg k (List.mem_cons_of_mem n member)
    rw [List.map_cons, naturals?, first, others]
    rfl

theorem Board.Valid.check?_observed {b : Board} (valid : b.Valid) : b.observed.check? room = .ok b := by
  have stakes : b.observed.stakes.length = optionCount := by
    rw [Board.observed, List.length_map, valid.stakes_length]
  have bettors : b.observed.bettors.length = optionCount := by
    rw [Board.observed, List.length_map, valid.bettors_length]
  rw [Observation.check?, require?_of _ stakes, require?_of _ bettors]
  simp only [Board.observed, naturals?_ints _ _ valid.stakes_nonneg,
    naturals?_ints _ _ valid.bettors_nonneg, natural?_int _ valid.skim_nonneg,
    require?_of _ valid.skim_le, natural?_int _ valid.remaining_nonneg,
    natural?_int _ valid.reward_nonneg, flag?, bind, Except.bind, pure, Except.pure]

theorem Observation.check?_eq_ok_iff {o : Observation} {b : Board} :
    o.check? room = .ok b ↔ o = b.observed ∧ b.Valid := by
  constructor
  · exact Observation.check_valid
  · rintro ⟨rfl, valid⟩
    exact valid.check?_observed

theorem Strategy.Valid.check?_drafted {s : Strategy} (valid : s.Valid) :
    s.drafted.check? room = .ok s := by
  have minBet : s.minBet % s.tick = 0 := Int.emod_eq_zero_of_dvd valid.minBet_tick
  have cap : s.cap % s.tick = 0 := Int.emod_eq_zero_of_dvd valid.cap_tick
  simp only [Draft.check?, Strategy.drafted, natural?_int _ valid.bankroll_nonneg,
    natural?_int _ valid.unitValue_nonneg, natural?_int _ valid.threshold_nonneg,
    natural?_int _ valid.passes_nonneg, positive?_int _ valid.tick_pos,
    positive?_int _ valid.minBet_pos, positive?_int _ valid.cap_pos,
    positive?_int _ valid.iterations_pos, require?_of _ minBet, require?_of _ cap,
    require?_of _ valid.minBet_le, bind, Except.bind, pure, Except.pure]

theorem Draft.check?_eq_ok_iff {d : Draft} {s : Strategy} :
    d.check? room = .ok s ↔ d = s.drafted ∧ s.Valid := by
  constructor
  · exact Draft.check_valid
  · rintro ⟨rfl, valid⟩
    exact valid.check?_drafted

theorem Board.observed_injective : Function.Injective Board.observed := by
  intro b c same
  have ints : Function.Injective (List.map Json.int) :=
    List.map_injective_iff.2 fun _ _ equal => Json.int.inj equal
  obtain ⟨stakes, bettors, skim, remaining, isOpen, reward⟩ := b
  cases c
  simp only [Board.observed, Observation.mk.injEq, Json.int.injEq, Json.bool.injEq, ints.eq_iff] at same
  obtain ⟨rfl, rfl, rfl, rfl, rfl, rfl⟩ := same
  rfl

theorem Strategy.drafted_injective : Function.Injective Strategy.drafted := by
  intro s r same
  obtain ⟨bankroll, cap, minBet, tick, unitValue, threshold, iterations, passes⟩ := s
  cases r
  simp only [Strategy.drafted, Draft.mk.injEq, Json.int.injEq] at same
  obtain ⟨rfl, rfl, rfl, rfl, rfl, rfl, rfl, rfl⟩ := same
  rfl

theorem Strategy.check?_error {s : Strategy} (invalid : ¬ s.Valid) :
    ∃ failure, s.drafted.check? room = .error failure := by
  cases checked : s.drafted.check? room with
  | error failure => exact ⟨failure, rfl⟩
  | ok r =>
    obtain ⟨same, valid⟩ := Draft.check?_eq_ok_iff.1 checked
    exact absurd (Strategy.drafted_injective same ▸ valid) invalid

instance (b : Board) : Decidable b.Valid :=
  decidable_of_iff
    ((b.stakes.length = optionCount ∧ b.bettors.length = optionCount) ∧
      ((∀ t ∈ b.stakes, 0 ≤ t) ∧ ∀ n ∈ b.bettors, 0 ≤ n) ∧
      (0 ≤ b.skim ∧ b.skim ≤ bpsScale) ∧ 0 ≤ b.remaining ∧ 0 ≤ b.reward)
    ⟨fun ⟨⟨stakes, bettors⟩, ⟨amounts, counts⟩, ⟨low, high⟩, remaining, reward⟩ =>
        ⟨stakes, bettors, amounts, counts, low, high, remaining, reward⟩,
      fun v => ⟨⟨v.stakes_length, v.bettors_length⟩, ⟨v.stakes_nonneg, v.bettors_nonneg⟩,
        ⟨v.skim_nonneg, v.skim_le⟩, v.remaining_nonneg, v.reward_nonneg⟩⟩

instance (s : Strategy) : Decidable s.Valid :=
  decidable_of_iff
    ((0 ≤ s.bankroll ∧ 0 ≤ s.unitValue ∧ 0 ≤ s.threshold ∧ 0 ≤ s.passes) ∧
      (0 < s.tick ∧ 0 < s.minBet ∧ 0 < s.cap ∧ 0 < s.iterations) ∧
      s.tick ∣ s.minBet ∧ s.tick ∣ s.cap ∧ s.minBet ≤ s.cap)
    ⟨fun ⟨⟨bankroll, unitValue, threshold, passes⟩, ⟨tick, minBet, cap, iterations⟩, onTick,
          capOn, le⟩ =>
        ⟨bankroll, unitValue, threshold, passes, tick, minBet, cap, iterations, onTick, capOn, le⟩,
      fun v => ⟨⟨v.bankroll_nonneg, v.unitValue_nonneg, v.threshold_nonneg, v.passes_nonneg⟩,
        ⟨v.tick_pos, v.minBet_pos, v.cap_pos, v.iterations_pos⟩, v.minBet_tick, v.cap_tick,
        v.minBet_le⟩⟩

end Parimutuel
