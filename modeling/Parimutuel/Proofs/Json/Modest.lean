import Parimutuel.Json.Reader
import Parimutuel.Proofs.Decimal.Range

namespace Parimutuel.Json

-- Values that messages can show: their numbers have few enough digits, and their parts stand in one
-- another no deeper than there is room.
inductive Modest : Nat → Json → Prop where
  | null {room : Nat} : Modest room .null
  | bool {room : Nat} (b : Bool) : Modest room (.bool b)
  | int {room : Nat} {n : Int} (brief : Text.Brief n) : Modest room (.int n)
  | real {room : Nat} {x : Binary64} (brief : ∀ n, x.integer? = some n → Text.Brief n) :
      Modest room (.real x)
  | text {room : Nat} (t : Text) : Modest room (.text t)
  | list {room : Nat} {items : List Json} (opened : items ≠ [] → 0 < room)
      (each : ∀ item ∈ items, Modest (room - 1) item) : Modest room (.list items)
  | object {room : Nat} {members : List (Text × Json)} (opened : members ≠ [] → 0 < room)
      (each : ∀ m ∈ members, Modest (room - 1) m.2) : Modest room (.object members)

theorem Modest.mono {room more : Nat} {value : Json} (modest : value.Modest room) (order : room ≤ more) :
    value.Modest more := by
  induction modest generalizing more with
  | null => exact .null
  | bool b => exact .bool b
  | int brief => exact .int brief
  | real brief => exact .real brief
  | text t => exact .text t
  | list opened _ ih =>
    exact .list (fun some => Nat.lt_of_lt_of_le (opened some) order) fun item member =>
      ih item member (Nat.sub_le_sub_right order 1)
  | object opened _ ih =>
    exact .object (fun some => Nat.lt_of_lt_of_le (opened some) order) fun m member =>
      ih m member (Nat.sub_le_sub_right order 1)

theorem decimal?_ok {n : Int} (brief : Text.Brief n) : decimal? n = .ok (toString n) :=
  if_neg (Nat.not_le.2 brief)

theorem describeItems?_ok {room : Nat} {items : List Json} (opened : items ≠ [] → 0 < room)
    (each : ∀ item ∈ items, ∃ t, item.describe? (room - 1) = .ok t) :
    ∃ t, describeItems? room items = .ok t := by
  induction items with
  | nil => exact ⟨_, rfl⟩
  | cons item rest ih =>
    have deep : ¬ room = 0 := Nat.ne_of_gt (opened (List.cons_ne_nil item rest))
    obtain ⟨first, shown⟩ := each item List.mem_cons_self
    obtain ⟨others, more⟩ := ih (fun _ => Nat.pos_of_ne_zero deep) fun i member =>
      each i (List.mem_cons_of_mem item member)
    rw [describeItems?, if_neg deep, shown, more]
    exact ⟨_, rfl⟩

theorem describeMembers?_ok {room : Nat} {members : List (Text × Json)} (opened : members ≠ [] → 0 < room)
    (each : ∀ m ∈ members, ∃ t, m.2.describe? (room - 1) = .ok t) :
    ∃ t, describeMembers? room members = .ok t := by
  induction members with
  | nil => exact ⟨_, rfl⟩
  | cons m rest ih =>
    have deep : ¬ room = 0 := Nat.ne_of_gt (opened (List.cons_ne_nil m rest))
    obtain ⟨first, shown⟩ := each m List.mem_cons_self
    obtain ⟨others, more⟩ := ih (fun _ => Nat.pos_of_ne_zero deep) fun i member =>
      each i (List.mem_cons_of_mem m member)
    rw [describeMembers?, if_neg deep, shown, more]
    exact ⟨_, rfl⟩

theorem Modest.described {room : Nat} {value : Json} (modest : value.Modest room) :
    ∃ t, value.describe? room = .ok t := by
  induction modest with
  | null => exact ⟨_, rfl⟩
  | bool b => cases b <;> exact ⟨_, rfl⟩
  | int brief => exact ⟨_, decimal?_ok brief⟩
  | real => exact ⟨_, rfl⟩
  | text t => exact ⟨_, rfl⟩
  | list opened _ ih =>
    obtain ⟨t, shown⟩ := describeItems?_ok opened ih
    exact ⟨_, by rw [describe?, shown]; rfl⟩
  | object opened _ ih =>
    obtain ⟨t, shown⟩ := describeMembers?_ok opened ih
    exact ⟨_, by rw [describe?, shown]; rfl⟩

end Parimutuel.Json
