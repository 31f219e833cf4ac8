import Parimutuel.Proofs.Snap.Kept

namespace Parimutuel.Snap

inductive Elimination (base : Model) :
    Nat → Stakes → List (Int × Rejection) → Snapped → Prop where
  | settled {s kept : Stakes} {rejected : List (Int × Rejection)} {priced : Model}
      (pricing : base.withStakes? s = .ok priced) (sieving : sieve? priced s = .ok (kept, [])) :
      Elimination base 1 s rejected ⟨s, priced, rejected⟩
  | dropped {n : Nat} {s kept : Stakes} {losers : List Int} {rejected : List (Int × Rejection)}
      {priced : Model} {r : Snapped} (pricing : base.withStakes? s = .ok priced)
      (sieving : sieve? priced s = .ok (kept, losers)) (some : losers ≠ [])
      (rest : Elimination base n kept (rejected ++ losers.map fun i => (i, .notPaying)) r) :
      Elimination base (n + 1) s rejected r

def Snaps (base : Model) (stakes : Stakes) (s : Strategy) (n : Nat) (r : Snapped) : Prop :=
  ∃ kept low, trim? s stakes.sorted = .ok (kept, low) ∧ Elimination base n kept low r

variable {base priced : Model} {n : Nat} {s kept : Stakes} {losers : List Int}
  {rejected : List (Int × Rejection)} {r : Snapped}

theorem eliminate?_turn (rejected : List (Int × Rejection)) (pricing : base.withStakes? s = .ok priced)
    (sieving : sieve? priced s = .ok (kept, losers)) :
    eliminate? base s rejected =
      if losers = [] then .ok ⟨s, priced, rejected⟩
      else eliminate? base kept (rejected ++ losers.map fun i => (i, .notPaying)) := by
  rw [eliminate?, pricing]
  dsimp only
  split
  next failed => rw [sieving] at failed; cases failed
  next run => rw [sieving] at run; cases run; rfl

theorem eliminate?_exact :
    eliminate? base s rejected = .ok r ↔ ∃ n, Elimination base n s rejected r := by
  constructor
  · intro run
    fun_induction eliminate? base s rejected with
    | case1 s rejected fault failed => cases run
    | case2 s rejected priced pricing fault failed => cases run
    | case3 s rejected priced pricing kept sieving =>
      cases run
      exact ⟨1, .settled pricing sieving⟩
    | case4 s rejected priced pricing kept losers sieving some ih =>
      obtain ⟨n, rest⟩ := ih run
      exact ⟨n + 1, .dropped pricing sieving some rest⟩
  · rintro ⟨n, run⟩
    induction run with
    | settled pricing sieving => rw [eliminate?_turn _ pricing sieving, if_pos rfl]
    | dropped pricing sieving some _ ih => rw [eliminate?_turn _ pricing sieving, if_neg some, ih]

theorem snap?_exact {stakes : Stakes} {strategy : Strategy} :
    snap? base stakes strategy = .ok r ↔ ∃ n, Snaps base stakes strategy n r := by
  constructor
  · intro run
    obtain ⟨⟨kept, low⟩, trimming, run⟩ := bind_ok run
    obtain ⟨n, elimination⟩ := eliminate?_exact.1 run
    exact ⟨n, kept, low, trimming, elimination⟩
  · rintro ⟨n, kept, low, trimming, elimination⟩
    rw [snap?, trimming]
    exact eliminate?_exact.2 ⟨n, elimination⟩

theorem Elimination.count_le (run : Elimination base n s rejected r) :
    n + r.stakes.length ≤ s.length + 1 := by
  induction run with
  | @settled s _ _ _ _ _ => exact Nat.le_of_eq (Nat.add_comm 1 s.length)
  | dropped _ sieving some _ ih =>
    have lengths := sieve?_length sieving
    have loser := List.length_pos_iff.2 some
    omega

theorem sieve?_parts (run : sieve? priced s = .ok (kept, losers)) :
    (kept.numbers ++ losers).Perm s.numbers := by
  induction s generalizing kept losers with
  | nil => cases run; exact .refl []
  | cons p rest ih =>
    obtain ⟨i, stake⟩ := p
    obtain ⟨value, _, run⟩ := bind_ok run
    obtain ⟨⟨others, more⟩, sieving, run⟩ := bind_ok run
    have parts := ih sieving
    by_cases lost : value ≤ 0
    · simp only [if_pos lost] at run
      cases run
      exact List.perm_middle.trans (parts.cons i)
    · simp only [if_neg lost] at run
      cases run
      exact parts.cons i

theorem Elimination.parts (run : Elimination base n s rejected r) :
    ∃ gone : List Int, r.rejected = rejected ++ gone.map (fun i => (i, .notPaying)) ∧
      (r.stakes.numbers ++ gone).Perm s.numbers := by
  induction run with
  | @settled s _ rejected _ _ _ =>
    exact ⟨[], (List.append_nil rejected).symm, .of_eq (List.append_nil s.numbers)⟩
  | @dropped n s kept losers rejected priced r _ sieving _ _ ih =>
    obtain ⟨later, same, parts⟩ := ih
    refine ⟨losers ++ later, ?_, ?_⟩
    · rw [same, List.map_append, List.append_assoc]
    · have regroup : (r.stakes.numbers ++ (losers ++ later)).Perm
          (r.stakes.numbers ++ later ++ losers) := by
        rw [List.append_assoc]
        exact List.perm_append_comm.append_left _
      exact (regroup.trans (parts.append_right losers)).trans (sieve?_parts sieving)

end Parimutuel.Snap
