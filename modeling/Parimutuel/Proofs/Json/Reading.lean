import Parimutuel.Proofs.Json.Modest

namespace Parimutuel.Json

theorem digitsAt_small (s : Text) : ∀ d ∈ digitsAt s, d < 10 := by
  intro d member
  obtain ⟨c, inside, rfl⟩ := List.mem_map.1 member
  have ascii := List.mem_takeWhile_imp inside
  simp only [Text.isAsciiDigit, Bool.and_eq_true, decide_eq_true_eq] at ascii
  omega

theorem wholeDigits?_small {s : Text} {digits : List Nat} {after : Shorter s}
    (read : wholeDigits? s = some (digits, after)) : ∀ d ∈ digits, d < 10 := by
  unfold wholeDigits? at read
  split at read
  · cases read
  · split at read
    · cases read
      decide
    · split at read
      · rename_i ascii
        cases read
        simp only [Text.isAsciiDigit, Bool.and_eq_true, decide_eq_true_eq] at ascii
        exact List.forall_mem_cons.2 ⟨by omega, digitsAt_small _⟩
      · cases read

theorem unsignedNumber?_modest {negative : Bool} {s : Text} {value : Json} {after : Shorter s} (room : Nat)
    (read : unsignedNumber? negative s = some (.ok value, after)) : value.Modest room := by
  unfold unsignedNumber? at read
  split at read
  · cases read
  · rename_i whole rest found
    simp only at read
    split at read
    · split at read
      · cases read
      · rename_i short
        cases read
        have size : Text.Brief (Text.ofDigits whole) :=
          Text.lt_pow_of_le (Text.ofDigits_lt (wholeDigits?_small found)) (Nat.not_lt.1 short)
        cases negative with
        | false => exact .int size
        | true => exact .int size.neg
    · split at read
      · cases read
        exact .real fun n => Binary64.ofDecimal_brief
      · cases read
        exact .real fun n => Binary64.ofDecimal_brief

theorem readNumber_modest {s : Text} {value : Json} {after : Shorter s} (room : Nat)
    (read : readNumber s = .ok (value, after)) : value.Modest room := by
  unfold readNumber at read
  split at read
  · cases read
  · split at read
    · split at read
      · cases read
      · cases read
      · rename_i found
        cases read
        exact unsignedNumber?_modest room found
    · split at read
      · cases read
      · cases read
      · rename_i found
        cases read
        exact unsignedNumber?_modest room found

theorem words_modest (room : Nat) : ∀ w ∈ words, w.2.Modest room := by
  simp only [words, List.forall_mem_cons, List.not_mem_nil, false_imp_iff, implies_true, and_true]
  exact ⟨.null, .bool _, .bool _, .real nofun, .real nofun, .real nofun⟩

theorem readWordOrNumber_modest {s : Text} {value : Json} {after : Shorter s} (room : Nat)
    (read : readWordOrNumber s = .ok (value, after)) : value.Modest room := by
  unfold readWordOrNumber at read
  split at read
  · rename_i word known found
    split at read
    · cases read
      exact words_modest room _ (List.mem_of_find?_eq_some found)
    · exact readNumber_modest room read
  · exact readNumber_modest room read

theorem putMember_mem {members : List (Text × Json)} {name : Text} {value : Json} {m : Text × Json}
    (member : m ∈ putMember members name value) : m.2 = value ∨ m ∈ members := by
  induction members with
  | nil => exact .inl (congrArg Prod.snd (List.mem_singleton.1 member))
  | cons known rest ih =>
    simp only [putMember] at member
    split at member
    · rcases List.mem_cons.1 member with rfl | inside
      · exact .inl rfl
      · exact .inr (List.mem_cons_of_mem known inside)
    · rcases List.mem_cons.1 member with rfl | inside
      · exact .inr List.mem_cons_self
      · exact (ih inside).imp_right (List.mem_cons_of_mem known)

-- Members that come again replace one another, but no value is new.
theorem foldl_putMember {P : Json → Prop} {members all : List (Text × Json)} (known : ∀ m ∈ all, P m.2)
    (each : ∀ m ∈ members, P m.2) :
    ∀ m ∈ members.foldl (fun all m => putMember all m.1 m.2) all, P m.2 := by
  induction members generalizing all with
  | nil => exact known
  | cons first rest ih =>
    refine ih ?_ fun m member => each m (List.mem_cons_of_mem first member)
    intro m member
    rcases putMember_mem member with same | inside
    · exact same ▸ each first List.mem_cons_self
    · exact known m inside

-- What the three readers promise of a text.
structure ReadsModest (s : Text) : Prop where
  value : ∀ {room : Nat} {v : Json} {after : Shorter s}, readValue room s = .ok (v, after) → v.Modest room
  items : ∀ {room : Nat} {items : List Json} {after : Shorter s}, readItems room s = .ok (items, after) →
    ∀ item ∈ items, item.Modest room
  members : ∀ {room : Nat} {members : List (Text × Json)} {after : Shorter s},
    readMembers room s = .ok (members, after) → ∀ m ∈ members, m.2.Modest room

section

variable {s : Text} {room : Nat}

theorem readValue_modest (shorter : ∀ t : Text, t.length < s.length → ReadsModest t) {v : Json}
    {after : Shorter s} (read : readValue room s = .ok (v, after)) : v.Modest room := by
  rw [readValue.eq_def] at read
  split at read
  · cases read
  · rename_i c rest
    split at read
    · obtain ⟨found, -, read⟩ := bind_ok read
      cases read
      exact .text _
    split at read
    · simp only at read
      split at read
      · cases read
      · rename_i deep
        split at read
        · cases read
        · rename_i d tail first
          split at read
          · cases read
            exact .object (absurd rfl) (List.forall_mem_nil _)
          · obtain ⟨⟨members, rest'⟩, inner, read⟩ := bind_ok read
            cases read
            have bound : (d :: tail).length < (c :: rest).length := by
              rw [← first]
              exact Nat.lt_succ_of_le (skip rest).property
            refine .object (fun _ => Nat.pos_of_ne_zero deep) ?_
            exact foldl_putMember (List.forall_mem_nil _) ((shorter _ bound).members inner)
    split at read
    · simp only at read
      split at read
      · cases read
      · rename_i deep
        split at read
        · cases read
        · rename_i d tail first
          split at read
          · cases read
            exact .list (absurd rfl) (List.forall_mem_nil _)
          · obtain ⟨⟨items, rest'⟩, inner, read⟩ := bind_ok read
            cases read
            have bound : (d :: tail).length < (c :: rest).length := by
              rw [← first]
              exact Nat.lt_succ_of_le (skip rest).property
            exact .list (fun _ => Nat.pos_of_ne_zero deep) ((shorter _ bound).items inner)
    · exact readWordOrNumber_modest room read

theorem readItems_modest (shorter : ∀ t : Text, t.length < s.length → ReadsModest t) {items : List Json}
    {after : Shorter s} (read : readItems room s = .ok (items, after)) :
    ∀ item ∈ items, item.Modest room := by
  rw [readItems.eq_def] at read
  obtain ⟨⟨item, rest⟩, first, read⟩ := bind_ok read
  have modest := readValue_modest shorter first
  simp only at read
  split at read
  · cases read
  · rename_i c tail next
    have blank := (skip tail).property
    have bound : (skip tail).val.length < s.length := by
      have space := (skip rest.val).property
      rw [next] at space
      have := rest.property
      simp only [List.length_cons] at space
      omega
    split at read
    · cases read
      exact List.forall_mem_singleton.2 modest
    split at read
    · obtain ⟨⟨others, final⟩, more, read⟩ := bind_ok read
      cases read
      exact List.forall_mem_cons.2 ⟨modest, (shorter _ bound).items more⟩
    · cases read

theorem readMembers_modest (shorter : ∀ t : Text, t.length < s.length → ReadsModest t)
    {members : List (Text × Json)} {after : Shorter s} (read : readMembers room s = .ok (members, after)) :
    ∀ m ∈ members, m.2.Modest room := by
  rw [readMembers.eq_def] at read
  split at read
  · cases read
  · rename_i q body
    split at read
    · obtain ⟨⟨name, afterName⟩, -, read⟩ := bind_ok read
      simp only at read
      split at read
      · cases read
      · rename_i c rest found
        split at read
        · obtain ⟨⟨value, afterValue⟩, inner, read⟩ := bind_ok read
          simp only at read
          have bound : (skip rest).val.length < (q :: body).length := by
            have blank := (skip rest).property
            have space := (skip afterName.val).property
            rw [found] at space
            have := afterName.property
            simp only [List.length_cons] at space ⊢
            omega
          have modest := (shorter _ bound).value inner
          split at read
          · cases read
          · rename_i d tail next
            have bound' : (skip tail).val.length < (q :: body).length := by
              have blank := (skip tail).property
              have space := (skip afterValue.val).property
              rw [next] at space
              have := afterValue.property
              simp only [List.length_cons] at space
              omega
            split at read
            · cases read
              exact List.forall_mem_singleton.2 modest
            split at read
            · obtain ⟨⟨others, final⟩, more, read⟩ := bind_ok read
              cases read
              exact List.forall_mem_cons.2 ⟨modest, (shorter _ bound').members more⟩
            · cases read
        · cases read
    · cases read

end

theorem readsModest (s : Text) : ReadsModest s := by
  induction size : s.length using Nat.strongRecOn generalizing s with
  | _ n ih =>
    have shorter (t : Text) (less : t.length < s.length) : ReadsModest t := ih _ (size ▸ less) t rfl
    exact ⟨readValue_modest shorter, readItems_modest shorter, readMembers_modest shorter⟩

theorem parse?_modest {room : Nat} {s : Text} {value : Json} (read : parse? room s = .ok value) :
    value.Modest room := by
  unfold parse? at read
  split at read
  · cases read
  · split at read
    · cases read
    · rename_i found
      simp only at read
      split at read
      · cases read
        exact (readsModest _).value found
      · cases read

end Parimutuel.Json
