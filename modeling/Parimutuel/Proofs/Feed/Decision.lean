import Parimutuel.Proofs.Decision
import Parimutuel.Proofs.Feed.Grammar

namespace Parimutuel

theorem Json.Denotes.brief {room : Nat} {value : Json} {n : Int} (denotes : value.Denotes n)
    (modest : value.Modest room) : Text.Brief n := by
  cases denotes with
  | int =>
    cases modest with
    | int brief => exact brief
  | real whole =>
    cases modest with
    | real brief => exact brief n (Binary64.integer?_eq_some_iff.2 whole)
  | text numeral => exact numeral.brief

namespace Feed

variable {room : Nat}

theorem integer?_decides {value : Json} (modest : value.Modest room) (field : String) :
    Decides (Json.Modest room) fun room => integer? room field value := by
  have shows : ∀ v ∈ (Refusal.notInteger field value).quoted, v.Modest room :=
    List.forall_mem_singleton.2 modest
  cases value with
  | int n => exact .pure n
  | real x =>
    cases whole : x.integer? with
    | some n => exact .passes n fun room => by simp only [integer?, whole]
    | none => exact .refuses _ shows fun room => by simp only [integer?, whole]
  | text t =>
    cases read : Text.integer? (Text.strip t) with
    | ok n => exact .passes n fun room => by simp only [integer?, read]
    | error e => exact .refuses _ shows fun room => by simp only [integer?, read]
  | _ => exact .refuses _ shows fun room => rfl

theorem integers?_decides {items : List Json} (modest : ∀ item ∈ items, item.Modest room) (field : String)
    (i : Nat) : Decides (Json.Modest room) fun room => integers? room field i items := by
  induction items generalizing i with
  | nil => exact .pure []
  | cons value rest ih =>
    have others := ih fun item member => modest item (List.mem_cons_of_mem value member)
    exact (integer?_decides (modest value List.mem_cons_self) _).bind fun _ _ =>
      (others (i + 1)).bind fun _ _ => .pure _

theorem row?_decides {value : Json} (modest : value.Modest room) (field : String) :
    Decides (Json.Modest room) fun room => row? room field value := by
  cases modest with
  | list opened each =>
    exact integers?_decides (fun item member => (each item member).mono (Nat.sub_le room 1)) field 0
  | object opened each =>
    refine integers?_decides (fun name member => ?_) field 0
    obtain ⟨m, -, rfl⟩ := List.mem_map.1 member
    exact .text m.1
  | _ => exact .refuses (.notSequence field) nofun fun room => rfl

theorem flag?_decides {value : Json} (modest : value.Modest room) (field : String) :
    Decides (Json.Modest room) fun room => flag? room field value := by
  have shows : ∀ v ∈ (Refusal.notBoolean field value).quoted, v.Modest room :=
    List.forall_mem_singleton.2 modest
  cases value with
  | bool b => exact .pure b
  | text t =>
    by_cases yes : trueWords.contains (Text.lowerAscii (Text.strip t))
    · exact .passes true fun room => if_pos yes
    · by_cases no : falseWords.contains (Text.lowerAscii (Text.strip t))
      · exact .passes false fun room => (if_neg yes).trans (if_pos no)
      · exact .refuses _ shows fun room => (if_neg yes).trans (if_neg no)
  | _ => exact .refuses _ shows fun room => rfl

theorem brief_of_denotes {items : List Json} {row : List Int} (each : List.Forall₂ Json.Denotes items row)
    (modest : ∀ item ∈ items, ∃ room, item.Modest room) : ∀ n ∈ row, Text.Brief n := by
  induction each with
  | nil => exact nofun
  | cons first _ ih =>
    obtain ⟨_, size⟩ := modest _ List.mem_cons_self
    exact List.forall_mem_cons.2
      ⟨first.brief size, ih fun item member => modest item (List.mem_cons_of_mem _ member)⟩

theorem Row.brief {value : Json} {row : List Int} (given : Row value row) (modest : value.Modest room) :
    ∀ n ∈ row, Text.Brief n := by
  rcases given with ⟨⟨each⟩⟩ | each
  · cases modest with
    | list opened modest => exact brief_of_denotes each fun item member => ⟨_, modest item member⟩
  · refine brief_of_denotes each fun name member => ⟨0, ?_⟩
    obtain ⟨m, -, rfl⟩ := List.mem_map.1 member
    exact .text m.1

section

variable {members : List (Text × Json)} (modest : ∀ m ∈ members, m.2.Modest room)
include modest

theorem member?_modest {name : String} {value : Json} (found : Json.member? members name = some value) :
    value.Modest room := by
  obtain ⟨before, after, rfl, -⟩ := List.lookup_eq_some_iff.1 found
  exact modest _ (List.mem_append_right _ List.mem_cons_self)

theorem getD_modest (name : String) {default : Json} (plain : default.Modest room) :
    ((Json.member? members name).getD default).Modest room := by
  cases found : Json.member? members name with
  | none => exact plain
  | some value => exact member?_modest modest found

theorem first?_modest {names : List String} {value : Json} (found : first? members names = some value) :
    value.Modest room := by
  have given := first?_eq_some_iff.1 found
  clear found
  induction given with
  | here found _ => exact member?_modest modest found
  | later _ _ ih => exact ih

theorem stakes?_decides : Decides (Json.Modest room) fun room => stakes? room members := by
  unfold stakes?
  cases found : first? members stakeNames with
  | none => exact .refuses .noStakes nofun fun room => rfl
  | some value => exact row?_decides (first?_modest modest found) _

theorem bettors?_decides : Decides (Json.Modest room) fun room => bettors? room members := by
  unfold bettors?
  cases found : first? members bettorNames with
  | none => exact .pure _
  | some value => exact row?_decides (first?_modest modest found) _

theorem remaining?_decides : Decides (Json.Modest room) fun room => remaining? room members := by
  unfold remaining?
  cases found : first? members remainingNames with
  | some value => exact integer?_decides (first?_modest modest found) _
  | none =>
    cases last : Json.member? members "end_slot" with
    | none => exact .refuses .noRemaining nofun fun room => rfl
    | some endSlot =>
      cases now : Json.member? members "current_slot" with
      | none => exact .refuses .noRemaining nofun fun room => rfl
      | some currentSlot =>
        exact (integer?_decides (member?_modest modest last) _).bind fun _ _ =>
          (integer?_decides (member?_modest modest now) _).bind fun _ _ => .pure _

theorem Given.row_brief {names : List String} {row : List Int}
    (given : ∃ value, Given members names value ∧ Row value row) : ∀ n ∈ row, Text.Brief n := by
  obtain ⟨value, found, row⟩ := given
  exact row.brief (first?_modest modest (first?_eq_some_iff.2 found))

-- What lies between two slots may be long, but it is never negative.
theorem Remaining.brief {remaining : Int} (left : Remaining members remaining) :
    Text.Brief remaining ∨ 0 ≤ remaining := by
  rcases left with ⟨value, given, denotes⟩ | ⟨-, _, _, last, current, -, -, -, -, rfl⟩
  · exact .inl (denotes.brief (first?_modest modest (first?_eq_some_iff.2 given)))
  · exact .inr (Int.le_max_left 0 _)

-- Of values that messages can show every reading is decided in words.
theorem read?_decides {skim : Int} (short : Text.Brief skim) :
    Decides (Json.Modest room) fun room => read? room members (.int skim) := by
  simp only [read?_eq]
  refine (stakes?_decides modest).bind fun stakes stakesRead => ?_
  refine (bettors?_decides modest).bind fun bettors bettorsRead => ?_
  refine (remaining?_decides modest).bind fun remaining left => ?_
  have skims := getD_modest modest "pool_skim_bps" (.int short)
  have rewards := getD_modest modest "reward_per_round" (.int (n := 0) Text.brief_zero)
  refine (integer?_decides skims _).bind fun taken skimRead => ?_
  refine (flag?_decides (getD_modest modest "round_open" (.bool true)) _).bind fun isOpen openRead => ?_
  refine (integer?_decides rewards _).bind fun reward rewardRead => ?_
  have stakesBrief := Given.row_brief modest (stakes?_eq_ok_iff.1 (stakesRead 0))
  have bettorsBrief : ∀ n ∈ bettors, Text.Brief n ∨ 0 ≤ n := by
    rcases bettors?_eq_ok_iff.1 (bettorsRead 0) with given | ⟨-, rfl⟩
    · exact fun n member => .inl (Given.row_brief modest given n member)
    · exact fun n member => .inr (Int.le_of_eq (List.eq_of_mem_replicate member).symm)
  have leftBrief := Remaining.brief modest (remaining?_eq_ok_iff.1 (left 0))
  have skimBrief := (integer?_eq_ok_iff.1 (skimRead 0)).brief skims
  have rewardBrief := (integer?_eq_ok_iff.1 (rewardRead 0)).brief rewards
  refine Observation.check?_decides ?_ (.int skimBrief) (.bool isOpen)
  simp only [Board.observed, List.forall_mem_append, List.forall_mem_map, List.forall_mem_cons,
    List.not_mem_nil, false_imp_iff, implies_true, and_true]
  refine ⟨⟨fun n member => ?_, fun n member => ?_⟩, .of_wrong leftBrief, .of_wrong (.inl rewardBrief)⟩
  · exact .of_wrong (.inl (stakesBrief n member))
  · exact .of_wrong (bettorsBrief n member)

end

end Feed
end Parimutuel
