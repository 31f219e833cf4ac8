import Parimutuel.Proofs.Acceptance
import Parimutuel.Proofs.Feed.Spelling

namespace Parimutuel

namespace Feed

variable {room : Nat} {members : List (Text × Json)}

-- Not there, or null.
def Missing (members : List (Text × Json)) (name : String) : Prop :=
  ∀ value, Json.member? members name = some value → value = .null

-- The first of several names that is not missing has this value.
inductive Given (members : List (Text × Json)) : List String → Json → Prop where
  | here {name : String} {rest : List String} {value : Json}
      (found : Json.member? members name = some value) (nonnull : value ≠ .null) :
      Given members (name :: rest) value
  | later {name : String} {rest : List String} {value : Json} (missing : Missing members name)
      (given : Given members rest value) : Given members (name :: rest) value

def Absent (members : List (Text × Json)) (names : List String) : Prop :=
  ∀ name ∈ names, Missing members name

-- What one member tells, or what holds where it is not there at all. Null is there.
def Stated {α : Type} (tells : Json → α → Prop) (members : List (Text × Json)) (name : String)
    (default a : α) : Prop :=
  (∃ value, Json.member? members name = some value ∧ tells value a) ∨
    Json.member? members name = none ∧ a = default

def Remaining (members : List (Text × Json)) (remaining : Int) : Prop :=
  (∃ value, Given members ["remaining_time_units", "slots_left"] value ∧ value.Denotes remaining) ∨
    Absent members ["remaining_time_units", "slots_left"] ∧
      ∃ endSlot currentSlot last current, Json.member? members "end_slot" = some endSlot ∧
        Json.member? members "current_slot" = some currentSlot ∧ endSlot.Denotes last ∧
        currentSlot.Denotes current ∧ remaining = max 0 (last - current)

structure Reads (Row : Json → List Int → Prop) (members : List (Text × Json)) (skim : Int) (b : Board) :
    Prop where
  stakes : ∃ value, Given members ["existing_stake", "deployed"] value ∧ Row value b.stakes
  bettors : (∃ value, Given members ["existing_bettors", "count"] value ∧ Row value b.bettors) ∨
    Absent members ["existing_bettors", "count"] ∧ b.bettors = List.replicate 25 0
  remaining : Remaining members b.remaining
  skim : Stated Json.Denotes members "pool_skim_bps" skim b.skim
  isOpen : Stated Json.Tells members "round_open" true b.isOpen
  reward : Stated Json.Denotes members "reward_per_round" 0 b.reward
  valid : b.Valid

theorem first?_missing {name : String} {rest : List String} (missing : Missing members name) :
    first? members (name :: rest) = first? members rest := by
  simp only [first?]
  cases found : Json.member? members name with
  | none => rfl
  | some value => cases missing value found; rfl

theorem first?_found {name : String} {rest : List String} {value : Json}
    (found : Json.member? members name = some value) (nonnull : value ≠ .null) :
    first? members (name :: rest) = some value := by
  simp only [first?, found]

theorem missing_or_found (members : List (Text × Json)) (name : String) :
    Missing members name ∨ ∃ value, Json.member? members name = some value ∧ value ≠ .null := by
  by_cases missing : Missing members name
  · exact .inl missing
  · simp only [Missing, not_forall] at missing
    obtain ⟨value, found, nonnull⟩ := missing
    exact .inr ⟨value, found, nonnull⟩

theorem first?_eq_some_iff {names : List String} {value : Json} :
    first? members names = some value ↔ Given members names value := by
  constructor
  · intro first
    induction names with
    | nil => cases first
    | cons name rest ih =>
      rcases missing_or_found members name with missing | ⟨other, found, nonnull⟩
      · rw [first?_missing missing] at first
        exact .later missing (ih first)
      · rw [first?_found found nonnull] at first
        cases first
        exact .here found nonnull
  · intro given
    induction given with
    | here found nonnull => exact first?_found found nonnull
    | later missing _ ih => rw [first?_missing missing, ih]

theorem first?_eq_none_iff {names : List String} : first? members names = none ↔ Absent members names := by
  induction names with
  | nil => exact iff_of_true rfl fun name member => by cases member
  | cons name rest ih =>
    rw [Absent, List.forall_mem_cons]
    rcases missing_or_found members name with missing | ⟨value, found, nonnull⟩
    · rw [first?_missing missing, ih]
      exact (and_iff_right missing).symm
    · rw [first?_found found nonnull]
      exact iff_of_false (fun none => by cases none) fun missing => nonnull (missing.1 value found)

-- A value that stands in for a missing member tells only what it is meant to.
theorem stated_iff {α : Type} {tells : Json → α → Prop} {name : String} {raw : Json} {default a : α}
    (plain : tells raw a ↔ a = default) :
    tells ((Json.member? members name).getD raw) a ↔ Stated tells members name default a := by
  cases found : Json.member? members name with
  | none => simp [Stated, found, plain]
  | some value => simp [Stated, found]

def stakes? (room : Nat) (members : List (Text × Json)) : Except Failure (List Int) :=
  match first? members stakeNames with
  | some value => row? room "existing_stake" value
  | none => .error (Refusal.noStakes.raised room)

def bettors? (room : Nat) (members : List (Text × Json)) : Except Failure (List Int) :=
  match first? members bettorNames with
  | some value => row? room "existing_bettors" value
  | none => .ok (List.replicate optionCount 0)

theorem read?_eq (members : List (Text × Json)) (skim : Json) : read? room members skim = (do
    let stakes ← stakes? room members
    let bettors ← bettors? room members
    let remaining ← remaining? room members
    let skim ← integer? room "pool_skim_bps" ((Json.member? members "pool_skim_bps").getD skim)
    let isOpen ← flag? room "round_open" ((Json.member? members "round_open").getD (.bool true))
    let reward ← integer? room "reward_per_round" ((Json.member? members "reward_per_round").getD (.int 0))
    (Board.observed { stakes, bettors, skim, remaining, isOpen, reward }).check? room) := by
  unfold read? stakes? bettors?
  cases first? members stakeNames with
  | none => rfl
  | some value => cases first? members bettorNames <;> rfl

theorem stakes?_eq_ok_iff {row : List Int} :
    stakes? room members = .ok row ↔
      ∃ value, Given members ["existing_stake", "deployed"] value ∧ Row value row := by
  simp only [stakes?, stakeNames, ← first?_eq_some_iff]
  cases first? members ["existing_stake", "deployed"] with
  | none => exact iff_of_false (fun read => by cases read) fun ⟨_, given, _⟩ => by cases given
  | some value => simp [row?_eq_ok_iff]

theorem bettors?_eq_ok_iff {row : List Int} :
    bettors? room members = .ok row ↔
      (∃ value, Given members ["existing_bettors", "count"] value ∧ Row value row) ∨
        Absent members ["existing_bettors", "count"] ∧ row = List.replicate 25 0 := by
  simp only [bettors?, bettorNames, ← first?_eq_some_iff, ← first?_eq_none_iff]
  cases first? members ["existing_bettors", "count"] with
  | none => simp [optionCount, eq_comm]
  | some value => simp [row?_eq_ok_iff]

theorem remaining?_eq_ok_iff {n : Int} : remaining? room members = .ok n ↔ Remaining members n := by
  simp only [remaining?, Remaining, ← first?_eq_some_iff, ← first?_eq_none_iff, remainingNames]
  cases first? members ["remaining_time_units", "slots_left"] with
  | some value => simp [integer?_eq_ok_iff]
  | none =>
    cases Json.member? members "end_slot" with
    | none => simp
    | some endSlot =>
      cases Json.member? members "current_slot" with
      | none => simp
      | some currentSlot =>
        simp only [bind_eq_ok_iff, integer?_eq_ok_iff, pure, Except.pure, Except.ok.injEq]
        constructor
        · rintro ⟨last, ends, current, now, rfl⟩
          exact .inr ⟨trivial, endSlot, currentSlot, last, current, rfl, rfl, ends, now, rfl⟩
        · rintro (⟨_, given, _⟩ | ⟨-, _, _, last, current, first, second, ends, now, rfl⟩)
          · cases given
          · cases first
            cases second
            exact ⟨last, ends, current, now, rfl⟩

theorem denotes_int_iff {n k : Int} : (Json.int n).Denotes k ↔ k = n :=
  ⟨fun denotes => by cases denotes; rfl, fun same => same ▸ .int n⟩

theorem tells_bool_iff {b c : Bool} : (Json.bool b).Tells c ↔ c = b :=
  ⟨fun told => by cases told; rfl, fun same => same ▸ .bool b⟩

theorem read?_eq_ok_iff {skim : Int} {b : Board} :
    read? room members (.int skim) = .ok b ↔ Reads Row members skim b := by
  simp only [read?_eq, bind_eq_ok_iff, stakes?_eq_ok_iff, bettors?_eq_ok_iff, remaining?_eq_ok_iff,
    integer?_eq_ok_iff, flag?_eq_ok_iff, stated_iff denotes_int_iff, stated_iff tells_bool_iff,
    Observation.check?_eq_ok_iff, Board.observed_injective.eq_iff]
  constructor
  · rintro ⟨stakes, stakesGiven, bettors, bettorsGiven, remaining, left, skim, taken, isOpen, told, reward,
      paid, rfl, valid⟩
    exact ⟨stakesGiven, bettorsGiven, left, taken, told, paid, valid⟩
  · intro reads
    exact ⟨b.stakes, reads.stakes, b.bettors, reads.bettors, b.remaining, reads.remaining, b.skim, reads.skim,
      b.isOpen, reads.isOpen, b.reward, reads.reward, rfl, reads.valid⟩

theorem Given.unique {names : List String} {value other : Json} (given : Given members names value)
    (again : Given members names other) : value = other := by
  rw [← first?_eq_some_iff] at given again
  rw [given] at again
  exact Option.some.inj again

theorem Given.present {names : List String} {value : Json} (given : Given members names value) :
    ¬ Absent members names := by
  rw [← first?_eq_some_iff] at given
  rw [← first?_eq_none_iff, given]
  exact Option.some_ne_none value

theorem Listed.not_object {inner : List (Text × Json)} {row : List Int} : ¬ Listed (.object inner) row := by
  intro listed
  cases listed

theorem Row.listed_of_not_object {value : Json} {row : List Int} (given : Row value row)
    (plain : ∀ inner, value ≠ .object inner) : Listed value row := by
  cases given with
  | listed listed => exact listed
  | names => exact absurd rfl (plain _)

def rowNames : List (List String) := [["existing_stake", "deployed"], ["existing_bettors", "count"]]

theorem Reads.of_listed {skim : Int} {b : Board} (reads : Reads Listed members skim b) :
    Reads Row members skim b ∧ ∀ names ∈ rowNames, ∀ inner, ¬ Given members names (.object inner) := by
  obtain ⟨stakes, stakesGiven, stakesListed⟩ := reads.stakes
  constructor
  · refine { reads with stakes := ⟨stakes, stakesGiven, .listed stakesListed⟩, bettors := ?_ }
    exact reads.bettors.imp_left fun ⟨value, given, listed⟩ => ⟨value, given, .listed listed⟩
  · simp only [rowNames, List.forall_mem_cons, List.not_mem_nil, false_imp_iff, implies_true, and_true]
    constructor
    · intro inner given
      cases stakesGiven.unique given
      exact Listed.not_object stakesListed
    · intro inner given
      rcases reads.bettors with ⟨value, bettorsGiven, listed⟩ | ⟨absent, -⟩
      · cases bettorsGiven.unique given
        exact Listed.not_object listed
      · exact given.present absent

theorem Reads.listed {skim : Int} {b : Board} (reads : Reads Row members skim b)
    (plain : ∀ names ∈ rowNames, ∀ inner, ¬ Given members names (.object inner)) :
    Reads Listed members skim b := by
  simp only [rowNames, List.forall_mem_cons, List.not_mem_nil, false_imp_iff, implies_true, and_true] at plain
  obtain ⟨stakes, stakesGiven, stakesRow⟩ := reads.stakes
  refine { reads with stakes := ⟨stakes, stakesGiven, stakesRow.listed_of_not_object ?_⟩, bettors := ?_ }
  · rintro inner rfl
    exact plain.1 inner stakesGiven
  · refine reads.bettors.imp_left fun ⟨value, given, row⟩ => ⟨value, given, row.listed_of_not_object ?_⟩
    rintro inner rfl
    exact plain.2 inner given

theorem read?_grammar (members : List (Text × Json)) (skim : Int) (b : Board) :
    (read? room members (.int skim) = .ok b ↔ Reads Row members skim b) ∧
      (Reads Listed members skim b ↔ read? room members (.int skim) = .ok b ∧
        ∀ names ∈ rowNames, ∀ inner, ¬ Given members names (.object inner)) := by
  refine ⟨read?_eq_ok_iff, ?_⟩
  rw [read?_eq_ok_iff]
  exact ⟨Reads.of_listed, fun ⟨reads, plain⟩ => reads.listed plain⟩

-- The stakes as an object, with the numbers of the options as its names.
def byOption : List (Text × Json) :=
  [(Text.ofString "existing_stake", .object (options.map fun i => (Text.ofString (toString i), .int 1))),
    (Text.ofString "remaining_time_units", .int 0)]

theorem read?_reads_object :
    read? 0 byOption (.int 1090) = .ok ⟨options, List.replicate 25 0, 1090, 0, true, 0⟩ ∧
      ¬ ∃ b, Reads Listed byOption 1090 b := by
  refine ⟨rfl, ?_⟩
  rintro ⟨b, reads⟩
  have object : Given byOption ["existing_stake", "deployed"]
      (.object (options.map fun i => (Text.ofString (toString i), .int 1))) :=
    .here rfl (fun none => by cases none)
  exact reads.of_listed.2 _ List.mem_cons_self _ object

end Feed
end Parimutuel
