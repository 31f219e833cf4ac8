import Parimutuel.Proofs.Acceptance
import Parimutuel.Proofs.Json.Modest

namespace Parimutuel

-- An integer, and no less than a bound. A truth value is none.
def Json.IntFrom (least : Int) (value : Json) : Prop := ∃ n, value = .int n ∧ least ≤ n

-- The values that the words of a refusal show.
def Refusal.quoted : Refusal → List Json
  | .notInteger _ value | .openNotBool value | .notBoolean _ value => [value]
  | .negative _ n | .skimTooHigh n => [.int n]
  | .offTick _ n tick => [.int n, .int tick]
  | .minAboveCap minBet cap => [.int minBet, .int cap]
  | .wrongCount .. | .notPositive _ | .noStakes | .noRemaining | .notSequence _ | .notObject _ => []

theorem Json.Modest.decimal?_ok {room : Nat} {n : Int} (modest : (Json.int n).Modest room) :
    Json.decimal? n = .ok (toString n) := by
  cases modest with
  | int brief => exact Json.decimal?_ok brief

-- Of an integer that is too small for a natural number no more is needed than that it is short.
theorem Json.Modest.of_wrong {room : Nat} {n : Int} (known : Text.Brief n ∨ 0 ≤ n)
    (wrong : ¬ (Json.int n).IntFrom 0) : (Json.int n).Modest room :=
  .int (known.resolve_right fun least => wrong ⟨n, rfl, least⟩)

-- Words fail only a refusal of something long or deep.
theorem Refusal.raised_refused {room : Nat} {refusal : Refusal}
    (modest : ∀ v ∈ refusal.quoted, v.Modest room) :
    ∃ message, refusal.raised room = .refused message := by
  obtain ⟨message, said⟩ : ∃ message, refusal.message? room = .ok message := by
    cases refusal with
    | notInteger field value | openNotBool value | notBoolean field value =>
      obtain ⟨t, shown⟩ := (modest value (List.mem_singleton_self value)).described
      exact ⟨_, by rw [message?, shown]; rfl⟩
    | negative field n | skimTooHigh n =>
      exact ⟨_, by rw [message?, (modest _ (List.mem_singleton_self _)).decimal?_ok]; rfl⟩
    | offTick field n tick | minAboveCap n tick =>
      have first := (modest (.int n) List.mem_cons_self).decimal?_ok
      have second := (modest (.int tick) (List.mem_cons_of_mem _ List.mem_cons_self)).decimal?_ok
      exact ⟨_, by rw [message?, first, second]; rfl⟩
    | _ => exact ⟨_, rfl⟩
  exact ⟨message, by rw [raised, said]⟩

theorem Refusal.raised_spoken (refusal : Refusal) (room : Nat) :
    (∃ message, refusal.raised room = .refused message) ∨ ∃ why, refusal.raised room = .unsayable why := by
  unfold raised
  cases refusal.message? room with
  | ok message => exact .inl ⟨message, rfl⟩
  | error why => exact .inr ⟨why, rfl⟩

-- A check that gives a value, or else refuses, and both whatever the room is; what it then shows is of
-- a certain kind.
inductive Decides {α : Type} (Shown : Json → Prop) (check : Nat → Except Failure α) : Prop where
  | passes (a : α) (run : ∀ room, check room = .ok a)
  | refuses (refusal : Refusal) (shows : ∀ v ∈ refusal.quoted, Shown v)
      (run : ∀ room, check room = .error (refusal.raised room))

namespace Decides

variable {α β : Type} {Shown : Json → Prop} {check : Nat → Except Failure α}
  {next : α → Nat → Except Failure β}

theorem pure (a : α) : Decides Shown fun _ => .ok a := .passes a fun _ => rfl

theorem bind (first : Decides Shown check)
    (rest : ∀ a, (∀ room, check room = .ok a) → Decides Shown (next a)) :
    Decides Shown fun room => check room >>= fun a => next a room := by
  cases first with
  | passes a run =>
    cases rest a run with
    | passes b more => exact .passes b fun room => by rw [run]; exact more room
    | refuses refusal shows more => exact .refuses refusal shows fun room => by rw [run]; exact more room
  | refuses refusal shows run => exact .refuses refusal shows fun room => by rw [run]; rfl

theorem mono {Kind : Json → Prop} (decides : Decides Shown check) (kind : ∀ v, Shown v → Kind v) :
    Decides Kind check := by
  cases decides with
  | passes a run => exact .passes a run
  | refuses refusal shows run => exact .refuses refusal (fun v member => kind v (shows v member)) run

theorem said {room : Nat} (decides : Decides (Json.Modest room) check) :
    (∃ a, check room = .ok a) ∨ ∃ message, check room = .error (.refused message) := by
  cases decides with
  | passes a run => exact .inl ⟨a, run room⟩
  | refuses refusal shows run =>
    obtain ⟨message, said⟩ := Refusal.raised_refused shows
    exact .inr ⟨message, by rw [run, said]⟩

end Decides

section

variable {Shown : Json → Prop}

theorem require?_decides {condition : Prop} [Decidable condition] {refusal : Refusal}
    (shows : ∀ v ∈ refusal.quoted, Shown v) : Decides Shown fun room => require? room condition refusal := by
  unfold require?
  split
  · exact .pure ()
  · exact .refuses refusal shows fun room => rfl

theorem natural?_decides {field : String} {value : Json} (wrong : ¬ value.IntFrom 0 → Shown value) :
    Decides Shown fun room => natural? room field value := by
  cases value with
  | int n =>
    by_cases least : 0 ≤ n
    · exact .passes n fun room => natural?_int field least
    · have negative : n < 0 := Int.not_le.1 least
      have shown : Shown (.int n) := wrong fun ⟨k, same, bound⟩ => least (Json.int.inj same ▸ bound)
      refine .refuses (.negative field n) (List.forall_mem_singleton.2 shown) fun room => ?_
      exact if_pos negative
  | _ => exact .refuses (.notInteger field _) (List.forall_mem_singleton.2 (wrong nofun)) fun room => rfl

theorem positive?_decides {field : String} {value : Json} (wrong : ¬ value.IntFrom 0 → Shown value) :
    Decides Shown fun room => positive? room field value :=
  (natural?_decides wrong).bind fun _ _ => (require?_decides nofun).bind fun _ _ => .pure _

theorem naturals?_decides {field : String} {i : Nat} {row : List Json}
    (wrong : ∀ v ∈ row, ¬ v.IntFrom 0 → Shown v) : Decides Shown fun room => naturals? room field i row := by
  induction row generalizing i with
  | nil => exact .pure []
  | cons value rest ih =>
    exact (natural?_decides (wrong value List.mem_cons_self)).bind fun _ _ =>
      (ih fun v member => wrong v (List.mem_cons_of_mem value member)).bind fun _ _ => .pure _

theorem flag?_decides {value : Json} (shown : Shown value) : Decides Shown fun room => flag? room value := by
  cases value with
  | bool b => exact .pure b
  | _ => exact .refuses (.openNotBool _) (List.forall_mem_singleton.2 shown) fun room => rfl

theorem Observation.check?_decides {o : Observation}
    (wrong : ∀ v ∈ o.stakes ++ o.bettors ++ [o.remaining, o.reward], ¬ v.IntFrom 0 → Shown v)
    (skim : Shown o.skim) (isOpen : Shown o.isOpen) : Decides Shown fun room => o.check? room := by
  simp only [List.forall_mem_append, List.forall_mem_cons, List.not_mem_nil, false_imp_iff, implies_true,
    and_true] at wrong
  obtain ⟨⟨stakes, bettors⟩, remaining, reward⟩ := wrong
  refine (require?_decides nofun).bind fun _ _ => (require?_decides nofun).bind fun _ _ => ?_
  refine (naturals?_decides stakes).bind fun _ _ => (naturals?_decides bettors).bind fun _ _ => ?_
  refine (natural?_decides fun _ => skim).bind fun n read => ?_
  have same := (natural?_ok (read 0)).1
  refine (require?_decides (List.forall_mem_singleton.2 (same ▸ skim))).bind fun _ _ => ?_
  exact (natural?_decides remaining).bind fun _ _ => (natural?_decides reward).bind fun _ _ =>
    (flag?_decides isOpen).bind fun _ _ => .pure _

theorem Draft.check?_decides {d : Draft}
    (wrong : ∀ v ∈ [d.bankroll, d.unitValue, d.threshold, d.passes, d.iterations],
      ¬ v.IntFrom 0 → Shown v)
    (sizes : ∀ v ∈ [d.tick, d.minBet, d.cap], Shown v) : Decides Shown fun room => d.check? room := by
  simp only [List.forall_mem_cons, List.not_mem_nil, false_imp_iff, implies_true, and_true] at wrong sizes
  obtain ⟨bankroll, unitValue, threshold, passes, iterations⟩ := wrong
  obtain ⟨tick, minBet, cap⟩ := sizes
  refine (natural?_decides bankroll).bind fun _ _ => (natural?_decides unitValue).bind fun _ _ => ?_
  refine (natural?_decides threshold).bind fun _ _ => (natural?_decides passes).bind fun _ _ => ?_
  refine (positive?_decides fun _ => tick).bind fun _ tickRead => ?_
  refine (positive?_decides fun _ => minBet).bind fun _ minBetRead => ?_
  refine (positive?_decides fun _ => cap).bind fun _ capRead => ?_
  rw [(positive?_ok (tickRead 0)).1] at tick
  rw [(positive?_ok (minBetRead 0)).1] at minBet
  rw [(positive?_ok (capRead 0)).1] at cap
  have both {v w : Json} (left : Shown v) (right : Shown w) : ∀ u ∈ [v, w], Shown u :=
    List.forall_mem_cons.2 ⟨left, List.forall_mem_singleton.2 right⟩
  refine (positive?_decides iterations).bind fun _ _ => ?_
  refine .bind (require?_decides ?_) fun _ _ => .bind (require?_decides ?_) fun _ _ =>
    .bind (require?_decides ?_) fun _ _ => .pure _
  · exact both minBet tick
  · exact both cap tick
  · exact both minBet cap

end

end Parimutuel
