import Parimutuel.Proofs.Pricing.Peak
import Parimutuel.Proofs.Search.Window

namespace Parimutuel.ShadowPrice

variable {m : Model} {candidates : List Int} {t : Terms}

theorem wish_nonneg (m : Model) {cap : Int} (price i : Int) (least : 0 ≤ cap) :
    0 ≤ wish m cap price i := by
  have peak := Quote.peak_nonneg (m.quoteAt i) price
  unfold wish
  omega

theorem wish_le (m : Model) (cap price i : Int) : wish m cap price i ≤ cap := Int.min_le_right _ _

theorem demand_numbers (m : Model) (cap : Int) (candidates : List Int) (price : Int) :
    (demand m cap candidates price).numbers = candidates := by
  rw [demand, Stakes.numbers, List.map_map]
  exact List.map_id candidates

theorem demand_distinct (m : Model) (cap : Int) (candidates : List Int) (price : Int) :
    (demand m cap candidates.eraseDups price).numbers.Nodup := by
  rw [demand_numbers]
  exact Allotment.eraseDups_nodup candidates

theorem mem_demand {cap price : Int} {p : Int × Int} (member : p ∈ demand m cap candidates price) :
    p.1 ∈ candidates ∧ p.2 = wish m cap price p.1 := by
  obtain ⟨i, inside, rfl⟩ := List.mem_map.1 member
  exact ⟨inside, rfl⟩

theorem demand_nonneg {cap price : Int} (least : 0 ≤ cap) :
    ∀ p ∈ demand m cap candidates price, 0 ≤ p.2 := by
  intro p member
  rw [(mem_demand member).2]
  exact wish_nonneg m price p.1 least

theorem amount_demand {cap price i : Int} (member : i ∈ candidates) :
    (demand m cap candidates.eraseDups price).amount i = wish m cap price i := by
  have entry : (i, wish m cap price i) ∈ demand m cap candidates.eraseDups price :=
    List.mem_map_of_mem (List.mem_eraseDups.2 member)
  exact Stakes.amount_of_mem (demand_distinct m cap candidates price) entry

theorem funded_perm (s : Stakes) : (funded s).Perm s.positive := Stakes.sorted_perm s.positive

-- An answer that hands out what is taken at its price.
structure Taken (m : Model) (candidates : List Int) (t : Terms) (r : Solution) : Prop where
  price_nonneg : 0 ≤ r.price
  stakes : r.stakes = funded (demand m t.cap candidates.eraseDups r.price)
  aggregate : r.aggregate = (demand m t.cap candidates.eraseDups r.price).total
  within : r.aggregate ≤ t.bankroll

theorem ceiling_pos (m : Model) (candidates : List Int) : 1 ≤ ceiling m candidates := by
  have grows : ∀ (row : List Int) (top : Int),
      top ≤ row.foldl (fun top value => max top (value + 1)) top := by
    intro row
    induction row with
    | nil => intro top; exact Int.le_refl top
    | cons value rest ih =>
      intro top
      exact Int.le_trans (Int.le_max_left top (value + 1)) (ih _)
  exact grows _ 1

theorem settled_straddles (exceeded : t.bankroll < spending m t.cap candidates.eraseDups 0) :
    (settled m candidates t).1.Straddles (spending m t.cap candidates.eraseDups) t.bankroll := by
  apply Window.narrow_straddles
  apply Window.widen_straddles
  exact ⟨Int.le_refl 0, ceiling_pos m candidates, exceeded⟩

theorem solution_cases (m : Model) (candidates : List Int) (t : Terms) :
    ((solution m candidates t).stakes = [] ∧ (solution m candidates t).aggregate = 0) ∨
      Taken m candidates t (solution m candidates t) := by
  unfold solution
  by_cases idle : candidates = [] ∨ t.bankroll ≤ 0
  · rw [if_pos idle]
    exact .inl ⟨rfl, rfl⟩
  · rw [if_neg idle]
    by_cases saturated : spending m t.cap candidates.eraseDups 0 ≤ t.bankroll
    · rw [if_pos saturated]
      exact .inr ⟨Int.le_refl 0, rfl, rfl, saturated⟩
    · rw [if_neg saturated]
      by_cases fits : spending m t.cap candidates.eraseDups (opening m candidates t).high ≤ t.bankroll
      · have last := settled_straddles (m := m) (Int.not_le.1 saturated)
        have price : 0 ≤ (settled m candidates t).1.high := by
          have := last.low_nonneg
          have := last.low_lt
          omega
        rw [if_pos fits]
        exact .inr ⟨price, rfl, rfl, Window.narrow_fits fits⟩
      · rw [if_neg fits]
        exact .inl ⟨rfl, rfl⟩

theorem solution_mem {p : Int × Int} (member : p ∈ (solution m candidates t).stakes) :
    p.1 ∈ candidates ∧ 0 < p.2 ∧ p.2 = wish m t.cap (solution m candidates t).price p.1 := by
  rcases solution_cases m candidates t with ⟨empty, _⟩ | taken
  · rw [empty] at member
    cases member
  · rw [taken.stakes] at member
    obtain ⟨demanded, above⟩ := Stakes.mem_positive.1 ((funded_perm _).mem_iff.1 member)
    obtain ⟨candidate, same⟩ := mem_demand demanded
    exact ⟨List.mem_eraseDups.1 candidate, above, same⟩

-- Nobody is handed out more than what is best at a price that is not negative.
theorem solution_le_peak {p : Int × Int} (member : p ∈ (solution m candidates t).stakes) :
    0 ≤ (solution m candidates t).price ∧
      p.2 ≤ (m.quoteAt p.1).peak (solution m candidates t).price := by
  obtain ⟨_, _, same⟩ := solution_mem member
  rcases solution_cases m candidates t with ⟨empty, _⟩ | taken
  · rw [empty] at member
    cases member
  · rw [same]
    exact ⟨taken.price_nonneg, Int.min_le_left _ _⟩

theorem not_idle (somebody : candidates ≠ []) (bankroll : 0 < t.bankroll) :
    ¬ (candidates = [] ∨ t.bankroll ≤ 0) := by
  rintro (nobody | broke)
  · exact somebody nobody
  · omega

theorem solution_enough (somebody : candidates ≠ []) (bankroll : 0 < t.bankroll)
    (enough : spending m t.cap candidates.eraseDups 0 ≤ t.bankroll) :
    solution m candidates t =
      { ending := .saturated
        stakes := funded (demand m t.cap candidates.eraseDups 0)
        aggregate := spending m t.cap candidates.eraseDups 0 } := by
  rw [solution, if_neg (not_idle somebody bankroll), if_pos enough]

theorem solution_saturated {found : Stakes} (somebody : candidates ≠ []) (bankroll : 0 < t.bankroll)
    (enough : spending m t.cap candidates.eraseDups 0 ≤ t.bankroll)
    (wishes : (demand m t.cap candidates.eraseDups 0).positive = found)
    (order : found.numbers.Pairwise (· < ·)) : (solution m candidates t).stakes = found := by
  rw [solution_enough somebody bankroll enough]
  change Stakes.sorted (demand m t.cap candidates.eraseDups 0).positive = found
  rw [wishes, Stakes.sorted_of_numbers order]

theorem solution_numbers (m : Model) (candidates : List Int) (t : Terms) :
    (solution m candidates t).stakes.numbers.Pairwise (· < ·) := by
  rcases solution_cases m candidates t with ⟨empty, _⟩ | taken
  · rw [empty]
    exact List.Pairwise.nil
  · rw [taken.stakes]
    apply Stakes.sorted_numbers
    exact (demand_distinct m t.cap candidates _).sublist ((Stakes.positive_sublist _).map _)

theorem solution_placed (t : Terms) (inside : ∀ i ∈ candidates, i ∈ options) :
    (solution m candidates t).stakes.Placed := by
  constructor
  · exact (solution_numbers m candidates t).imp fun {a b} less => by omega
  · intro i member
    obtain ⟨p, entry, rfl⟩ := List.mem_map.1 member
    exact inside p.1 (solution_mem entry).1

theorem solution_total (m : Model) (candidates : List Int) (least : 0 ≤ t.cap) :
    (solution m candidates t).stakes.total = (solution m candidates t).aggregate := by
  rcases solution_cases m candidates t with ⟨empty, nothing⟩ | taken
  · rw [empty, nothing]
    rfl
  · rw [taken.stakes, taken.aggregate, Stakes.total_perm (funded_perm _)]
    exact Stakes.total_positive (demand_nonneg least)

theorem solution_aggregate_le (m : Model) (candidates : List Int) (t : Terms) :
    (solution m candidates t).aggregate ≤ max 0 t.bankroll := by
  rcases solution_cases m candidates t with ⟨_, nothing⟩ | taken
  · rw [nothing]
    exact Int.le_max_left 0 _
  · exact Int.le_trans taken.within (Int.le_max_right 0 _)

theorem taken_amount {r : Solution} {i : Int} (least : 0 ≤ t.cap) (taken : Taken m candidates t r)
    (member : i ∈ candidates) : r.stakes.amount i = wish m t.cap r.price i := by
  have distinct := demand_distinct m t.cap candidates r.price
  have kept : (demand m t.cap candidates.eraseDups r.price).positive.numbers.Nodup :=
    distinct.sublist ((Stakes.positive_sublist _).map _)
  have fresh : (funded (demand m t.cap candidates.eraseDups r.price)).numbers.Nodup :=
    (((funded_perm _).map Prod.fst).nodup_iff).2 kept
  rw [taken.stakes, Stakes.amount_perm fresh (funded_perm _),
    Stakes.amount_positive distinct (demand_nonneg least), amount_demand member]

theorem eraseDups_perm {a b : List Int} (same : ∀ i, i ∈ a ↔ i ∈ b) :
    a.eraseDups.Perm b.eraseDups := by
  rw [List.perm_ext_iff_of_nodup (Allotment.eraseDups_nodup a) (Allotment.eraseDups_nodup b)]
  intro i
  rw [List.mem_eraseDups, List.mem_eraseDups]
  exact same i

theorem ceiling_le_iff (m : Model) (candidates : List Int) (bound : Int) :
    ceiling m candidates ≤ bound ↔
      1 ≤ bound ∧ ∀ i ∈ candidates, (m.quoteAt i).marginal 0 + 1 ≤ bound := by
  have fold : ∀ (row : List Int) (top : Int),
      row.foldl (fun top value => max top (value + 1)) top ≤ bound ↔
        top ≤ bound ∧ ∀ value ∈ row, value + 1 ≤ bound := by
    intro row
    induction row with
    | nil => simp
    | cons value rest ih =>
      intro top
      rw [List.foldl_cons, ih, List.forall_mem_cons, Int.max_le, and_assoc]
  rw [ceiling, fold, List.forall_mem_map]

theorem ceiling_congr {a b : List Int} (m : Model) (same : ∀ i, i ∈ a ↔ i ∈ b) :
    ceiling m a = ceiling m b := by
  have below : ∀ {a b : List Int}, (∀ i, i ∈ a → i ∈ b) → ceiling m a ≤ ceiling m b := by
    intro a b sub
    obtain ⟨least, each⟩ := (ceiling_le_iff m b (ceiling m b)).1 (Int.le_refl _)
    exact (ceiling_le_iff m a (ceiling m b)).2 ⟨least, fun i member => each i (sub i member)⟩
  exact Int.le_antisymm (below fun i => (same i).1) (below fun i => (same i).2)

theorem solution_congr {a b : List Int} (m : Model) (t : Terms) (same : ∀ i, i ∈ a ↔ i ∈ b) :
    solution m a t = solution m b t := by
  have perm := eraseDups_perm same
  have demanded : ∀ price, (demand m t.cap a.eraseDups price).Perm (demand m t.cap b.eraseDups price) :=
    fun price => perm.map _
  have total : spending m t.cap a.eraseDups = spending m t.cap b.eraseDups :=
    funext fun price => Stakes.total_perm (demanded price)
  have stakes : ∀ price, funded (demand m t.cap a.eraseDups price) =
      funded (demand m t.cap b.eraseDups price) := by
    intro price
    apply Stakes.sorted_eq_of_perm
    · exact (demand_distinct m t.cap b price).sublist ((Stakes.positive_sublist _).map _)
    · exact (demanded price).filter _
  have nobody : a = [] ↔ b = [] := by
    rw [List.eq_nil_iff_forall_not_mem, List.eq_nil_iff_forall_not_mem]
    exact forall_congr' fun i => not_congr (same i)
  have opened : opening m a t = opening m b t := by
    rw [opening, opening, total, ceiling_congr m same]
  have last : settled m a t = settled m b t := by rw [settled, settled, opened, total]
  unfold solution
  by_cases idle : b = [] ∨ t.bankroll ≤ 0
  · rw [if_pos idle, if_pos (idle.imp nobody.2 id)]
  · rw [if_neg idle, if_neg fun other => idle (other.imp nobody.1 id)]
    simp only [stakes, total, opened, last]

end Parimutuel.ShadowPrice
