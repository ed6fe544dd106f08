import EmralsConsensus.Modifier.Grow
import Mathlib.Data.Nat.Bitwise

/-!
# The selection rounds of `ComputeNextStakeModifier`

When the parent's chain is indexed and has a generated entry, and both interval checks pass, the
round loop runs to completion.

* `RoundInv`: after `k` rounds, `k` entries are selected, with distinct hashes, each the entry of
  a candidate, and the accumulator holds their entropy bits in bits `0 … k-1`.
* `selectionRound_inv`: one round below `min(64, size)` keeps it: the section's `assert` holds,
  an unselected candidate is left (the selected hashes are fewer than the candidates' distinct
  ones), so `SelectBlockFromCandidates` succeeds; `selectionRounds_inv`: every prefix of rounds.
  `RoundInv.mem_chain`: on an indexed chain the selected entries are the chain's own, in the
  candidate window.
* **`computeNextStakeModifier_rounds`**: the selection path returns `(nStakeModifierNew, true)`,
  whose bit `r` is the entropy bit of round `r`'s entry, pairwise distinct and among the candidates, for
  `r < min(64, size)`, and `0` above.
-/

namespace Emrals

@[simp] theorem testBit_toNat_shiftLeft (c : Bool) (k i : Nat) :
    (c.toNat <<< k).testBit i = (decide (i = k) && c) := by
  cases c <;> simp [Nat.shiftLeft_eq, Nat.testBit_two_pow, eq_comm]

/-- After `k` rounds: the selected entries in round order, with distinct hashes, each the entry
found under a candidate's hash; bit `i` of the accumulator is round `i`'s entropy bit, `0` from
round `k` on. -/
structure RoundInv (mapBlockIndex : BlockMap) (vSortedByTimestamp : List (Nat × Nat)) (k : Nat)
    (st : Nat × List CBlockIndex × Int) : Prop where
  length_eq : st.2.1.length = k
  nodup : (st.2.1.map CBlockIndex.hashBlock).Nodup
  mem : ∀ b ∈ st.2.1, (∃ r, mapBlockIndex b.hashBlock = some (b :: r)) ∧
    (b.nTime, b.hashBlock) ∈ vSortedByTimestamp
  testBit_eq : ∀ i, st.1.testBit i = (st.2.1[i]?.map CBlockIndex.stakeEntropyBit).getD false

section Rounds

variable (params : ConsensusParams) (mapBlockIndex : BlockMap) (selectionHash : Nat → Nat → Nat)
  (nStakeModifierPrev : Nat) {vSortedByTimestamp : List (Nat × Nat)}

theorem exists_unselected (hv : (vSortedByTimestamp.map Prod.snd).Nodup)
    {sel : List CBlockIndex} (hlt : sel.length < vSortedByTimestamp.length) :
    ∃ item ∈ vSortedByTimestamp, item.2 ∉ sel.map CBlockIndex.hashBlock := by
  by_contra hall
  push_neg at hall
  have hsub : vSortedByTimestamp.map Prod.snd ⊆ sel.map CBlockIndex.hashBlock := fun x hx => by
    obtain ⟨item, hi, rfl⟩ := List.mem_map.mp hx
    exact hall item hi
  have := (List.subperm_of_subset hv hsub).length_le
  simp only [List.length_map] at this
  omega

theorem testBit_or_shiftLeft {acc : Nat} {sel : List CBlockIndex} {b : CBlockIndex}
    (hacc : ∀ i, acc.testBit i = (sel[i]?.map CBlockIndex.stakeEntropyBit).getD false) (i : Nat) :
    (acc ||| (b.stakeEntropyBit.toNat <<< sel.length)).testBit i =
      ((sel ++ [b])[i]?.map CBlockIndex.stakeEntropyBit).getD false := by
  rw [Nat.testBit_or, hacc, testBit_toNat_shiftLeft]
  rcases Nat.lt_trichotomy i sel.length with h | rfl | h
  · simp [List.getElem?_append_left h, h.ne]
  · simp
  · simp [List.getElem?_eq_none (by simp; omega : (sel ++ [b]).length ≤ i),
      List.getElem?_eq_none h.le, h.ne']

/-- **One round keeps the invariant.** Below `min(64, size)` rounds, with the candidates found
and of distinct hashes, the round succeeds and selects one more candidate entry. -/
theorem selectionRound_inv (hf : CandidatesFound mapBlockIndex vSortedByTimestamp)
    (hv : (vSortedByTimestamp.map Prod.snd).Nodup) {k : Nat}
    (hk : k < min 64 vSortedByTimestamp.length) {st : Nat × List CBlockIndex × Int}
    (hst : RoundInv mapBlockIndex vSortedByTimestamp k st) :
    ∃ st', selectionRound params mapBlockIndex selectionHash vSortedByTimestamp nStakeModifierPrev
      st k = .ok st' ∧ RoundInv mapBlockIndex vSortedByTimestamp (k + 1) st' := by
  have hk64 : k < 64 := lt_of_lt_of_le hk (min_le_left _ _)
  obtain ⟨b, hsel, hnew, item, hi, r, hb⟩ := selectBlockFromCandidates_ok mapBlockIndex
    selectionHash st.2.1 (st.2.2 + selectionIntervalSection params k) nStakeModifierPrev hf
    (exists_unselected hv (hst.length_eq ▸ lt_of_lt_of_le hk (min_le_right _ _)))
  obtain ⟨b', r', hb', hh, ht⟩ := hf item hi
  obtain ⟨rfl, -⟩ := List.cons.inj (Option.some.inj (hb.symm.trans hb'))
  refine ⟨(st.1 ||| (b.stakeEntropyBit.toNat <<< k), st.2.1 ++ [b],
    st.2.2 + selectionIntervalSection params k), by
      simp [selectionRound, getStakeModifierSelectionIntervalSection_of_lt params hk64, hsel], ?_⟩
  refine ⟨by simp [hst.length_eq], ?_, ?_, ?_⟩
  · rw [List.map_append, List.map_singleton, List.nodup_append_comm]
    exact List.nodup_cons.mpr ⟨hnew, hst.nodup⟩
  · intro c hc
    rcases List.mem_append.mp hc with hc | hc
    · exact hst.mem c hc
    · rw [List.mem_singleton.mp hc, hh, ht]
      exact ⟨⟨r, hb⟩, hi⟩
  · exact hst.length_eq ▸ testBit_or_shiftLeft hst.testBit_eq

/-- **Every prefix of the rounds keeps the invariant**: `k ≤ min(64, size)` rounds from
`(0, [], start)` succeed. -/
theorem selectionRounds_inv (hf : CandidatesFound mapBlockIndex vSortedByTimestamp)
    (hv : (vSortedByTimestamp.map Prod.snd).Nodup) (nSelectionIntervalStart : Int) :
    ∀ k ≤ min 64 vSortedByTimestamp.length, ∃ st,
      selectionRounds params mapBlockIndex selectionHash vSortedByTimestamp nStakeModifierPrev k
        nSelectionIntervalStart = .ok st ∧ RoundInv mapBlockIndex vSortedByTimestamp k st
  | 0, _ => ⟨_, rfl, ⟨rfl, List.nodup_nil, by simp, by simp⟩⟩
  | k + 1, hk => by
    obtain ⟨st, hrun, hinv⟩ := selectionRounds_inv hf hv nSelectionIntervalStart k (by omega)
    obtain ⟨st', hstep, hinv'⟩ := selectionRound_inv params mapBlockIndex selectionHash
      nStakeModifierPrev hf hv (by omega) hinv
    refine ⟨st', ?_, hinv'⟩
    simp only [selectionRounds] at hrun ⊢
    rw [List.range_succ, List.foldlM_append, hrun]
    simp [hstep]

theorem RoundInv.mem_chain {p : List CBlockIndex} (hidx : Indexed mapBlockIndex p)
    {nSelectionIntervalStart : Int} {k : Nat} {st : Nat × List CBlockIndex × Int}
    (hinv : RoundInv mapBlockIndex (sortCandidates (collectCandidates nSelectionIntervalStart p))
      k st) :
    ∀ b ∈ st.2.1, (∃ s, b :: s <:+ p) ∧ nSelectionIntervalStart ≤ b.nTime ∧
      (b.nTime, b.hashBlock) ∈ sortCandidates (collectCandidates nSelectionIntervalStart p) := by
  intro b hb
  obtain ⟨⟨r', hr'⟩, hv'⟩ := hinv.mem b hb
  obtain ⟨c, s, hs, ht, he⟩ := mem_collectCandidates ((sortCandidates_perm _).subset hv')
  obtain ⟨-, hch⟩ := Prod.mk.inj he
  rw [hch, hidx.lookup hs] at hr'
  obtain ⟨rfl, rfl⟩ := List.cons.inj (Option.some.inj hr')
  exact ⟨⟨s, hs⟩, ht, hv'⟩

/-- **The selection rounds.** On an indexed parent chain with a generated entry `g`, when both
interval checks pass, `ComputeNextStakeModifier` runs `min(64, size)` rounds over the sorted
candidates, each of which succeeds; it returns `(nStakeModifierNew, true)`. The selected entries
are pairwise-distinct entries of the parent's chain from the selection start on, each one of the
candidates (the window the candidate loop collects, which stops at the first entry before the
start whatever the times below it), and bit `r` of
`nStakeModifierNew` is the entropy bit of round `r`'s entry, `0` from the last round on. -/
theorem computeNextStakeModifier_rounds {cur prev g : CBlockIndex} {r : List CBlockIndex}
    (hidx : Indexed mapBlockIndex (prev :: r)) (hg : nearestGenerated (prev :: r) = some g)
    (h1 : g.nTime / params.nModifierInterval < prev.nTime / params.nModifierInterval)
    (h2 : g.nTime / params.nModifierInterval < cur.nTime / params.nModifierInterval) :
    let v := sortCandidates (collectCandidates (selectionIntervalStart params prev) (prev :: r))
    ∃ nStakeModifierNew sel nSelectionIntervalStop,
      selectionRounds params mapBlockIndex selectionHash v g.nStakeModifier (min 64 v.length)
        (selectionIntervalStart params prev) =
          .ok (nStakeModifierNew, sel, nSelectionIntervalStop) ∧
      computeNextStakeModifier params mapBlockIndex selectionHash (cur :: prev :: r) =
        .ok (nStakeModifierNew, true) ∧
      sel.length = min 64 v.length ∧
      (sel.map CBlockIndex.hashBlock).Nodup ∧
      (∀ b ∈ sel, (∃ s, b :: s <:+ prev :: r) ∧ selectionIntervalStart params prev ≤ b.nTime ∧
        (b.nTime, b.hashBlock) ∈ v) ∧
      (∀ i (hi : i < sel.length), nStakeModifierNew.testBit i = sel[i].stakeEntropyBit) ∧
      (∀ i, sel.length ≤ i → nStakeModifierNew.testBit i = false) := by
  intro v
  obtain ⟨hf, hv⟩ := candidates_of_indexed mapBlockIndex hidx (selectionIntervalStart params prev)
  obtain ⟨⟨m, sel, stop⟩, hrun, hinv⟩ := selectionRounds_inv params mapBlockIndex selectionHash
    g.nStakeModifier hf hv (selectionIntervalStart params prev) _ le_rfl
  refine ⟨m, sel, stop, hrun, ?_, hinv.length_eq, hinv.nodup, hinv.mem_chain mapBlockIndex hidx,
    fun i hi => ?_, fun i hi => ?_⟩
  · rw [computeNextStakeModifier_of_selection params mapBlockIndex selectionHash hg h1 h2, hrun]
    rfl
  · simp [hinv.testBit_eq, List.getElem?_eq_getElem hi]
  · simp [hinv.testBit_eq, List.getElem?_eq_none hi]

end Rounds

theorem computeNextStakeModifier_rounds_exampleGrandchild :
    Indexed exampleIndex [exampleChild, exampleGenesis] ∧
    nearestGenerated [exampleChild, exampleGenesis] = some exampleGenesis ∧
    exampleGenesis.nTime / mainParams.nModifierInterval <
      exampleChild.nTime / mainParams.nModifierInterval ∧
    exampleGenesis.nTime / mainParams.nModifierInterval <
      exampleGrandchild.nTime / mainParams.nModifierInterval ∧
    let v := sortCandidates (collectCandidates (selectionIntervalStart mainParams exampleChild)
      [exampleChild, exampleGenesis])
    ∃ nStakeModifierNew sel nSelectionIntervalStop,
      selectionRounds mainParams exampleIndex exampleSelectionHash v exampleGenesis.nStakeModifier
        (min 64 v.length) (selectionIntervalStart mainParams exampleChild) =
          .ok (nStakeModifierNew, sel, nSelectionIntervalStop) ∧
      computeNextStakeModifier mainParams exampleIndex exampleSelectionHash
        [exampleGrandchild, exampleChild, exampleGenesis] = .ok (nStakeModifierNew, true) ∧
      sel.length = min 64 v.length ∧
      (sel.map CBlockIndex.hashBlock).Nodup ∧
      (∀ b ∈ sel, (∃ s, b :: s <:+ [exampleChild, exampleGenesis]) ∧
        selectionIntervalStart mainParams exampleChild ≤ b.nTime ∧ (b.nTime, b.hashBlock) ∈ v) ∧
      (∀ i (hi : i < sel.length), nStakeModifierNew.testBit i = sel[i].stakeEntropyBit) ∧
      (∀ i, sel.length ≤ i → nStakeModifierNew.testBit i = false) :=
  ⟨by decide, rfl, by decide, by decide,
    computeNextStakeModifier_rounds mainParams exampleIndex exampleSelectionHash (by decide) rfl
      (by decide) (by decide)⟩

end Emrals
