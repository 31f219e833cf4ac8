import Parimutuel.Planner
import Parimutuel.Proofs.Search.Solution

namespace Parimutuel

namespace Screen

def promising (m : Model) (minBet i : Int) : Bool :=
  if (m.quoteAt i).taken = 0 then 0 < (m.quoteAt i).value minBet else 0 < (m.quoteAt i).marginal 0

def screened (board : Board) (s : Strategy) : List Int :=
  options.filter (promising (Model.bare board s) s.minBet)

theorem promising?_ok {m : Model} (sound : m.Sound) (minBet : Int) {i : Int} (member : i ∈ options) :
    promising? m minBet i = .ok (promising m minBet i) := by
  simp only [promising?, sound.flat? member, sound.value? member, sound.marginal? member, bind,
    Except.bind, pure, Except.pure, promising, beq_iff_eq]
  split <;> rfl

theorem kept?_ok {board : Board} {s : Strategy} (valid : board.Valid) (unitValue : 0 ≤ s.unitValue) :
    kept? board s = .ok (screened board s) := by
  rw [kept?, Model.bare?_ok s valid]
  exact keepWhere?_ok options fun i member =>
    promising?_ok (Model.bare_sound valid unitValue) s.minBet member

theorem screened_sublist (board : Board) (s : Strategy) : (screened board s).Sublist options :=
  List.filter_sublist

end Screen

namespace Planner

theorem ranked_perm (valued : List (Int × Int)) : (ranked valued).Perm (valued.map Prod.fst) :=
  (List.mergeSort_perm valued _).map Prod.fst

theorem fund_numbers (minBet budget : Int) (row : List Int) :
    (fund minBet budget row).numbers.Sublist row := by
  induction row generalizing budget with
  | nil => exact .refl []
  | cons i rest ih =>
    unfold fund
    split
    · exact List.nil_sublist _
    · exact (ih (budget - minBet)).cons_cons i

theorem fund_amount {minBet budget : Int} {row : List Int} {p : Int × Int}
    (member : p ∈ fund minBet budget row) : p.2 = minBet := by
  induction row generalizing budget with
  | nil => cases member
  | cons i rest ih =>
    unfold fund at member
    split at member
    · cases member
    · rcases List.mem_cons.1 member with rfl | later
      · rfl
      · exact ih later

theorem fund_total_le {minBet budget : Int} (least : 0 ≤ budget) (row : List Int) :
    (fund minBet budget row).total ≤ budget := by
  induction row generalizing budget with
  | nil => exact least
  | cons i rest ih =>
    unfold fund
    split
    · exact least
    · rename_i enough
      have others := ih (show 0 ≤ budget - minBet by omega)
      rw [Stakes.total_cons]
      omega

-- More money goes to the same options and then to further ones, unless what is left of the less does
-- not buy another bet.
theorem fund_richer {minBet budget richer : Int} (order : budget ≤ richer) (row : List Int) :
    fund minBet budget row = fund minBet richer row ∨
      (budget - (fund minBet budget row).total < minBet ∧
        fund minBet budget row ⊆ fund minBet richer row) := by
  induction row generalizing budget richer with
  | nil => exact .inl rfl
  | cons i rest ih =>
    by_cases short : budget < minBet
    · rw [fund, if_pos short]
      refine .inr ⟨?_, List.nil_subset _⟩
      rw [Stakes.total_nil, Int.sub_zero]
      exact short
    · have enough : ¬ richer < minBet := by omega
      rw [fund, fund, if_neg short, if_neg enough]
      rcases ih (show budget - minBet ≤ richer - minBet by omega) with same | ⟨left, fewer⟩
      · exact .inl (congrArg ((i, minBet) :: ·) same)
      · refine .inr ⟨?_, List.cons_subset_cons _ fewer⟩
        rw [Stakes.total_cons]
        omega

def flat (base : Model) (candidates : List Int) : List Int :=
  candidates.filter fun i => (base.quoteAt i).taken == 0

def staked (base : Model) (candidates : List Int) : List Int :=
  candidates.filter fun i => !((base.quoteAt i).taken == 0)

def fundFlat (base : Model) (candidates : List Int) (s : Strategy) : Stakes :=
  fund s.minBet s.bankroll
    (ranked ((flat base candidates).map fun i => (i, (base.quoteAt i).value s.minBet)))

def search (base : Model) (candidates : List Int) (t : Terms) (held : Stakes) : Solution :=
  ShadowPrice.solution (base.against held) (staked base candidates) t

def refined (search : Stakes → Solution) (funded : Stakes) :
    Nat → Solution → Solution × List Solution
  | 0, current => (current, [])
  | n + 1, current =>
    let next := search (funded.merge current.stakes)
    if next.stakes = current.stakes then (current, [next])
    else ((refined search funded n next).1, next :: (refined search funded n next).2)

def searched (base : Model) (candidates : List Int) (s : Strategy) (funded : Stakes) :
    Solution × List Solution :=
  refined (search base candidates (terms s (s.bankroll - funded.total))) funded s.passes.toNat
    (search base candidates (terms s (s.bankroll - funded.total)) funded)

variable {base : Model} {candidates : List Int} {s : Strategy} {t : Terms}

theorem fundFlat?_ok (sound : base.Sound) (inside : ∀ i ∈ candidates, i ∈ options) (s : Strategy) :
    fundFlat? base candidates s = .ok (fundFlat base candidates s) := by
  have kept := keepWhere?_ok candidates fun i member => sound.flat? (inside i member)
  have known : ∀ i ∈ flat base candidates, i ∈ options := fun i member =>
    inside i (List.mem_of_mem_filter member)
  have values := mapM_ok (f := fun i => do return (i, ← base.value? i s.minBet))
    (g := fun i => (i, (base.quoteAt i).value s.minBet)) (flat base candidates) fun i member => by
      rw [sound.value? (known i member)]
      rfl
  rw [fundFlat?, kept]
  change (do
    let valued ← (flat base candidates).mapM fun i => do return (i, ← base.value? i s.minBet)
    return fund s.minBet s.bankroll (ranked valued)) = Except.ok (fundFlat base candidates s)
  rw [values]
  rfl

theorem staked?_ok (sound : base.Sound) (inside : ∀ i ∈ candidates, i ∈ options) :
    keepWhere? (fun i => do return !(← base.flat? i)) candidates = .ok (staked base candidates) := by
  apply keepWhere?_ok
  intro i member
  rw [sound.flat? (inside i member)]
  rfl

theorem fundFlat_numbers (base : Model) (candidates : List Int) (s : Strategy) :
    ∀ i ∈ (fundFlat base candidates s).numbers, i ∈ flat base candidates := by
  intro i member
  have rank := (ranked_perm _).mem_iff.1 ((fund_numbers _ _ _).subset member)
  rw [List.map_map] at rank
  obtain ⟨j, inside, rfl⟩ := List.mem_map.1 rank
  exact inside

theorem fundFlat_placed (distinct : candidates.Nodup) (inside : ∀ i ∈ candidates, i ∈ options)
    (s : Strategy) : (fundFlat base candidates s).Placed := by
  constructor
  · apply List.Nodup.sublist (fund_numbers _ _ _)
    rw [(ranked_perm _).nodup_iff, List.map_map]
    exact (List.map_id _).symm ▸ distinct.filter _
  · intro i member
    exact inside i (List.mem_of_mem_filter (fundFlat_numbers base candidates s i member))

theorem mem_staked {i : Int} :
    i ∈ staked base candidates ↔ i ∈ candidates ∧ (base.quoteAt i).taken ≠ 0 := by
  rw [staked, List.mem_filter, Bool.not_eq_true', beq_eq_false_iff_ne]

theorem flat_apart {i : Int} (unstaked : i ∈ flat base candidates) : i ∉ staked base candidates := by
  intro other
  have none := eq_of_beq (List.mem_filter.1 unstaked).2
  exact (mem_staked.1 other).2 none

theorem staked_known (inside : ∀ i ∈ candidates, i ∈ options) :
    ∀ i ∈ staked base candidates, i ∈ options := fun i member => inside i (mem_staked.1 member).1

theorem search?_ok (sound : base.Sound) (inside : ∀ i ∈ candidates, i ∈ options) (t : Terms)
    {held : Stakes} (placed : held.Placed) :
    search? base (staked base candidates) t held = .ok (search base candidates t held) := by
  rw [search?, sound.withStakes? placed]
  exact (sound.against held).solve? (staked_known inside) t

theorem search_numbers {held : Stakes} :
    ∀ i ∈ (search base candidates t held).stakes.numbers, i ∈ staked base candidates := by
  intro i member
  obtain ⟨p, entry, rfl⟩ := List.mem_map.1 member
  exact (ShadowPrice.solution_mem entry).1

theorem search_apart {held : Stakes} : ∀ i ∈ (fundFlat base candidates s).numbers,
    i ∉ (search base candidates t held).stakes.numbers := fun i first second =>
  flat_apart (fundFlat_numbers base candidates s i first) (search_numbers i second)

theorem search_placed (inside : ∀ i ∈ candidates, i ∈ options) {held : Stakes} :
    (search base candidates t held).stakes.Placed :=
  ShadowPrice.solution_placed t (staked_known inside)

theorem merge_search_placed (distinct : candidates.Nodup) (inside : ∀ i ∈ candidates, i ∈ options)
    {held : Stakes} :
    ((fundFlat base candidates s).merge (search base candidates t held).stakes).Placed := by
  have funded : (fundFlat base candidates s).Placed := fundFlat_placed distinct inside s
  rw [funded.merge (search_placed inside) search_apart]
  exact funded.append (search_placed inside) search_apart

theorem refine?_ok {search? : Stakes → Except Fault Solution} {search : Stakes → Solution}
    {funded : Stakes}
    (answers : ∀ held, held.Placed → search? held = .ok (search held))
    (placed : ∀ held, (funded.merge (search held).stakes).Placed) (n : Nat) {current : Solution}
    (start : (funded.merge current.stakes).Placed) :
    refine? search? funded n current = .ok (refined search funded n current) := by
  induction n generalizing current with
  | zero => rfl
  | succ n ih =>
    have next := answers (funded.merge current.stakes) start
    have later := ih (placed (funded.merge current.stakes))
    simp only [refine?, refined, next, bind, Except.bind, pure, Except.pure]
    by_cases same : (search (funded.merge current.stakes)).stakes = current.stakes
    · rw [if_pos same, if_pos same]
    · rw [if_neg same, if_neg same, later]

-- What holds of every search priced against an answer beside the bets ahead of it holds of the answer
-- that is used.
theorem refined_keeps {search : Stakes → Solution} {funded : Stakes} {Q : Solution → Prop}
    (next : ∀ held, Q (search (funded.merge (search held).stakes))) (n : Nat) (first : Stakes)
    (start : Q (search first)) : Q (refined search funded n (search first)).1 := by
  induction n generalizing first with
  | zero => exact start
  | succ n ih =>
    simp only [refined]
    split
    · exact start
    · exact ih _ (next first)

theorem refined_search (search : Stakes → Solution) (funded : Stakes) (n : Nat) (first : Stakes) :
    ∃ held, (refined search funded n (search first)).1 = search held :=
  refined_keeps (Q := fun r => ∃ held, r = search held) (fun _ => ⟨_, rfl⟩) n first ⟨first, rfl⟩

theorem searched?_ok (sound : base.Sound) (distinct : candidates.Nodup)
    (inside : ∀ i ∈ candidates, i ∈ options) {funded : Stakes}
    (same : funded = fundFlat base candidates s)
    {budget : Int} (rest : budget = s.bankroll - funded.total) :
    (do
      let first ← search? base (staked base candidates) (terms s budget) funded
      refine? (search? base (staked base candidates) (terms s budget)) funded s.passes.toNat first) =
      .ok (searched base candidates s funded) := by
  subst same rest
  have placed : (fundFlat base candidates s).Placed := fundFlat_placed distinct inside s
  have first := search?_ok sound inside (terms s (s.bankroll - (fundFlat base candidates s).total)) placed
  rw [first]
  apply refine?_ok
  · intro held placed
    exact search?_ok sound inside _ placed
  · intro held
    exact merge_search_placed distinct inside
  · exact merge_search_placed distinct inside

theorem searched_search (base : Model) (candidates : List Int) (s : Strategy) (funded : Stakes) :
    ∃ held, (searched base candidates s funded).1 =
      search base candidates (terms s (s.bankroll - funded.total)) held :=
  refined_search _ funded s.passes.toNat funded

theorem searched_numbers {funded : Stakes} :
    ∀ i ∈ (searched base candidates s funded).1.stakes.numbers, i ∈ staked base candidates := by
  obtain ⟨held, same⟩ := searched_search base candidates s funded
  rw [same]
  exact search_numbers

theorem searched_placed (inside : ∀ i ∈ candidates, i ∈ options) {funded : Stakes} :
    (searched base candidates s funded).1.stakes.Placed := by
  obtain ⟨held, same⟩ := searched_search base candidates s funded
  rw [same]
  exact search_placed inside

theorem searched_apart {funded : Stakes} :
    ∀ i ∈ (searched base candidates s funded).1.stakes.numbers,
      i ∉ (fundFlat base candidates s).numbers := by
  intro i first second
  exact flat_apart (fundFlat_numbers base candidates s i second) (searched_numbers i first)

end Planner
end Parimutuel
