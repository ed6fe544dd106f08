import EmralsConsensus.Modifier.Store

/-!
# The modifiers of a chain as a function of its headers

What a block index stores as modifiers is determined by the blocks alone: replaying
`ComputeNextStakeModifier` along a chain's headers, from the genesis up, on an index that holds
only that chain, gives every stored chain's modifiers and flags.

* `replayModifiers`: the replay, with the index it builds.
* `replayModifiers_grown`: on headers with distinct hashes the replay never fails, its index is
  grown, and its chain keeps the headers.
* **`grown_replayModifiers`**: the replay of distinct headers succeeds, and every chain stored in
  a grown index has, entry by entry, the view (every field but `nHeight` and the checksum) that
  the replay of its headers computes.
-/

namespace Emrals

section Replay

variable (params : ConsensusParams) (selectionHash : Nat → Nat → Nat)

/-- The chain `hs` (tip first) replayed from its genesis on an empty index: each entry is added
with what `ComputeNextStakeModifier` returns for it over the replayed entries below. The index
built, and the replayed chain. -/
def replayModifiers : List CBlockIndex → Except Failure (BlockMap × List CBlockIndex)
  | [] => .ok (fun _ => none, [])
  | b :: hs => do
    let (mapBlockIndex, pprev) ← replayModifiers hs
    let (nStakeModifier, fGenerated) ←
      computeNextStakeModifier params mapBlockIndex selectionHash (b :: pprev)
    let b' := { b with nStakeModifier := nStakeModifier, generatedStakeModifier := fGenerated }
    .ok (insertEntry mapBlockIndex b' pprev, b' :: pprev)

/-- The run lemma of the replay: on headers with distinct hashes it succeeds, its index is
grown and stores its chain, holds no hash but the headers', and its chain has their headers. -/
theorem replayModifiers_grown : ∀ {hs : List CBlockIndex}, (hs.map CBlockIndex.hashBlock).Nodup →
    ∃ mapBlockIndex q, replayModifiers params selectionHash hs = .ok (mapBlockIndex, q) ∧
      Grown params selectionHash mapBlockIndex ∧ (q = [] ∨ ∃ h, mapBlockIndex h = some q) ∧
      (∀ h, h ∉ hs.map CBlockIndex.hashBlock → mapBlockIndex h = none) ∧
      q.map CBlockIndex.headerView = hs.map CBlockIndex.headerView
  | [], _ => ⟨_, [], rfl, .empty, .inl rfl, fun _ _ => rfl, rfl⟩
  | b :: hs, hnd => by
    obtain ⟨hb, hnd⟩ := List.nodup_cons.mp hnd
    obtain ⟨M, q, hr, hg, hq, hfresh, hhdr⟩ := replayModifiers_grown hnd
    have hm : ModifierChain q := by
      rcases hq with rfl | ⟨h, hh⟩
      · trivial
      · exact (grown_chainInv params selectionHash hg h _ hh).2.1
    obtain ⟨m, f, hc⟩ : ∃ m f, computeNextStakeModifier params M selectionHash (b :: q) = .ok (m, f) :=
      computeNextStakeModifier_ok params selectionHash
        (Grown.indexed_parent (grown_indexed params selectionHash hg) hq) hm
    refine ⟨_, _, by simp only [replayModifiers, hr, hc, ok_bind], .add hg hq (hfresh _ hb) hc,
      .inr ⟨b.hashBlock, insertEntry_self _ _ _⟩, fun h hh => ?_, ?_⟩
    · simp only [List.map_cons, List.mem_cons, not_or] at hh
      rw [insertEntry_of_ne (b := { b with nStakeModifier := m, generatedStakeModifier := f }) _ _
        hh.1]
      exact hfresh h hh.2
    · simp only [List.map_cons, hhdr]
      rfl

/-- **The replay, and every grown index refines it.** Replaying headers with distinct hashes never
fails: it builds a grown index whose chain has those headers. On every block index grown by
`ComputeNextStakeModifier`, from any blocks added in any order, each stored chain has, entry by
entry, the view that replaying its headers from the genesis computes: its modifiers and
generated flags are a function of its headers, and that function is `replayModifiers`. -/
theorem grown_replayModifiers :
    (∀ hs : List CBlockIndex, (hs.map CBlockIndex.hashBlock).Nodup →
      ∃ mapBlockIndex q, replayModifiers params selectionHash hs = .ok (mapBlockIndex, q) ∧
        Grown params selectionHash mapBlockIndex ∧
        q.map CBlockIndex.headerView = hs.map CBlockIndex.headerView) ∧
    ∀ mapBlockIndex, Grown params selectionHash mapBlockIndex → ∀ h p, mapBlockIndex h = some p →
      (replayModifiers params selectionHash (p.map CBlockIndex.headerView)).map
          (fun r => r.2.map CBlockIndex.stakeView) =
        .ok (p.map CBlockIndex.stakeView) := by
  refine ⟨fun hs hnd => ?_, fun mapBlockIndex hg h p hp => ?_⟩
  · obtain ⟨M, q, hr, hg, -, -, hhdr⟩ := replayModifiers_grown params selectionHash hnd
    exact ⟨M, q, hr, hg, hhdr⟩
  have hidx := grown_indexed params selectionHash hg h p hp
  have hnd : ((p.map CBlockIndex.headerView).map CBlockIndex.hashBlock).Nodup := by
    rw [List.map_map]
    exact hidx.nodup_hashBlock
  obtain ⟨M, q, hr, hg', hq, -, hhdr⟩ := replayModifiers_grown params selectionHash hnd
  -- the headers of the replayed chain are the stored chain's, so the views agree
  have hv := grown_stakeView_eq params selectionHash hg' hg
    (Grown.indexed_parent (grown_indexed params selectionHash hg') hq) hidx
    (by rw [hhdr, List.map_map]; rfl)
  rw [hr]
  exact congrArg Except.ok hv

theorem grown_replayModifiers_exampleIndex :
    ([exampleGrandchild, exampleChild, exampleGenesis].map CBlockIndex.hashBlock).Nodup ∧
    (∃ mapBlockIndex q, replayModifiers mainParams exampleSelectionHash
        [exampleGrandchild, exampleChild, exampleGenesis] = .ok (mapBlockIndex, q) ∧
      Grown mainParams exampleSelectionHash mapBlockIndex ∧
      q.map CBlockIndex.headerView =
        [exampleGrandchild, exampleChild, exampleGenesis].map CBlockIndex.headerView) ∧
    Grown mainParams exampleSelectionHash exampleIndex ∧
    exampleIndex 3 = some [exampleGrandchild, exampleChild, exampleGenesis] ∧
    (replayModifiers mainParams exampleSelectionHash
        ([exampleGrandchild, exampleChild, exampleGenesis].map CBlockIndex.headerView)).map
        (fun r => r.2.map CBlockIndex.stakeView) =
      .ok ([exampleGrandchild, exampleChild, exampleGenesis].map CBlockIndex.stakeView) :=
  ⟨by decide, (grown_replayModifiers mainParams exampleSelectionHash).1 _ (by decide),
    grown_exampleIndex, rfl,
    (grown_replayModifiers mainParams exampleSelectionHash).2 _ grown_exampleIndex 3 _ rfl⟩

end Replay

end Emrals
