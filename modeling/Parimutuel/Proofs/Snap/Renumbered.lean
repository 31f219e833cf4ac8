import Parimutuel.Proofs.Search.Renumbered
import Parimutuel.Proofs.Snap.Kept

namespace Parimutuel

variable {σ : Renumbering} {board board' : Board}

theorem Renumbering.Moves.symm (moved : σ.Moves board board') : σ.symm.Moves board' board where
  taken i member := by
    have back := moved.taken (σ.symm i) ((σ.symm.inside i).2 member)
    rw [σ.apply_symm] at back
    exact back.symm
  skim := moved.skim.symm
  remaining := moved.remaining.symm
  isOpen := moved.isOpen.symm
  reward := moved.reward.symm

theorem Renumbering.Moves.pays (moved : σ.Moves board board') (valid : board.Valid)
    (valid' : board'.Valid) {s : Strategy} {u : Stakes} (placed : u.Placed)
    (pays : (Model.bare board s).Pays u) : (Model.bare board' s).Pays (u.renumber σ) := by
  intro p member
  obtain ⟨q, inside, rfl⟩ := List.mem_map.1 member
  have known := placed.known q.1 (Stakes.numbers_of_mem inside)
  have quote := moved.against valid valid' s placed.distinct (.refl (u.renumber σ)) q.1 known
  rw [quote]
  exact pays q inside

namespace Snap

theorem trimmed_renumbered (s : Strategy) {stakes stakes' : Stakes}
    (perm : stakes'.Perm (stakes.renumber σ)) :
    (trimmed s stakes').Perm ((trimmed s stakes).renumber σ) := by
  have each : trimmed s (stakes.renumber σ) = (trimmed s stakes).renumber σ := by
    rw [trimmed, trimmed, Stakes.renumber, Stakes.renumber, List.filter_map, List.map_map, List.map_map]
    rfl
  rw [← each]
  exact (perm.filter _).map _

variable {s : Strategy} {stakes stakes' : Stakes} {r r' : Snapped}

theorem Kept.renumber_subset (moved : σ.Moves board board') (valid : board.Valid)
    (valid' : board'.Valid) (placed : stakes.Placed) (perm : stakes'.Perm (stakes.renumber σ))
    (kept : Kept (Model.bare board s) stakes r) (kept' : Kept (Model.bare board' s) stakes' r') :
    r.stakes.renumber σ ⊆ r'.stakes := by
  apply kept'.greatest
  · intro p member
    obtain ⟨q, inside, rfl⟩ := List.mem_map.1 member
    exact perm.mem_iff.2 (List.mem_map_of_mem (kept.inside.subset inside))
  · exact moved.pays valid valid' (placed.sublist kept.inside) kept.pays

theorem Kept.renumbered (moved : σ.Moves board board') (valid : board.Valid) (valid' : board'.Valid)
    (placed : stakes.Placed) (perm : stakes'.Perm (stakes.renumber σ))
    (kept : Kept (Model.bare board s) stakes r) (kept' : Kept (Model.bare board' s) stakes' r') :
    r'.stakes.Perm (r.stakes.renumber σ) := by
  have placed' : stakes'.Placed := (placed.renumber σ).perm perm.symm
  have back : stakes.Perm (stakes'.renumber σ.symm) := by
    rw [← Stakes.renumber_symm σ stakes]
    exact (perm.map _).symm
  have left := kept.renumber_subset moved valid valid' placed perm kept'
  have right := kept'.renumber_subset moved.symm valid' valid placed' back kept
  have before : (r.stakes.renumber σ).Nodup :=
    List.Nodup.of_map Prod.fst ((placed.sublist kept.inside).renumber σ).distinct
  have after : r'.stakes.Nodup := List.Nodup.of_map Prod.fst (placed'.sublist kept'.inside).distinct
  rw [List.perm_ext_iff_of_nodup after before]
  intro p
  constructor
  · intro member
    rw [← Stakes.symm_renumber σ r'.stakes] at member
    exact List.map_subset _ right member
  · intro member
    exact left member

end Snap
end Parimutuel
