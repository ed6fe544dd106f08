import EmralsConsensus.Kernel.Walk
import EmralsConsensus.Kernel.ProofOfStake

/-!
# The kernel's modifier is generated after the staked coins

kernel.cpp hashes a kernel with the stake modifier "about a selection interval later than the
coin generating the kernel", so that a proof of stake cannot be computed in advance when the
coins confirm.

* `exists_suffix_of_mem`, `find?_late_eq_ok`: an entry the walk meets climbing from `pindexFrom`
  stands above it, and the one it returns is generated and late.
* `getKernelStakeModifierV03_late`: the walk returns the modifier, height and time of a generated
  entry above `pindexFrom`, on `pindexPrev`'s chain or on the active chain, at least a selection
  interval after `pindexFrom`.
* **`checkProofOfStake_modifier_late`**: an accepted proof of stake is hashed with the modifier of
  such an entry, a selection interval after the block holding the staked coins.
-/

namespace Emrals

section Walk

variable (params : ConsensusParams) (chainActive : CChain) (mapBlockIndex : BlockMap)
  (fPrintProofOfStake : Bool) (nAdjustedTime : Int)

theorem exists_suffix_of_mem {c f : CBlockIndex} {s up : List CBlockIndex} (hc : c ∈ up) :
    ∃ r, c :: r <:+ up.reverse ++ f :: s ∧ f :: s <:+ r := by
  obtain ⟨u1, u2, rfl⟩ := List.mem_iff_append.mp hc
  exact ⟨u1.reverse ++ f :: s, ⟨u2.reverse, by simp⟩, List.suffix_append _ _⟩

theorem find?_late_eq_ok {L : List CBlockIndex} {nThreshold : Int} {e : Failure}
    {x : Nat × Nat × Nat}
    (h : (match L.find? (isLate nThreshold) with
      | some c => .ok (c.nStakeModifier, c.nHeight, c.nTime)
      | none => .error e : Except Failure (Nat × Nat × Nat)) = .ok x) :
    ∃ c ∈ L, c.generatedStakeModifier = true ∧ nThreshold ≤ c.nTime ∧
      x = (c.nStakeModifier, c.nHeight, c.nTime) := by
  rcases hc : L.find? (isLate nThreshold) with _ | c <;> rw [hc] at h
  · cases h
  · have hl := List.find?_some hc
    simp only [isLate, Bool.and_eq_true, decide_eq_true_eq] at hl
    exact ⟨c, List.mem_of_find?_eq_some hc, hl.1, hl.2, (Except.ok.inj h).symm⟩

theorem getKernelStakeModifierV03_late (ht : HeightsOk chainActive.tip) {f : CBlockIndex}
    {s pindexPrev : List CBlockIndex} (hp : HeightsOk pindexPrev) (hf : f :: s <:+ pindexPrev)
    (hidx : mapBlockIndex f.hashBlock = some (f :: s)) {x : Nat × Nat × Nat}
    (h : getKernelStakeModifierV03 params chainActive mapBlockIndex pindexPrev f.hashBlock
      fPrintProofOfStake nAdjustedTime = .ok x) :
    ∃ c r, (c :: r <:+ pindexPrev ∨ c :: r <:+ chainActive.tip) ∧ f :: s <:+ r ∧
      c.generatedStakeModifier = true ∧ f.nTime + getStakeModifierSelectionInterval params ≤ c.nTime ∧
      x = (c.nStakeModifier, c.nHeight, c.nTime) := by
  obtain ⟨a, rfl⟩ := hf
  obtain ⟨above, rfl⟩ : ∃ above, a = above.reverse := ⟨a.reverse, (List.reverse_reverse a).symm⟩
  by_cases hon : above.reverse ++ f :: s <:+ chainActive.tip
  · -- on the active chain: an entry of the tip's chain above `pindexFrom`
    obtain ⟨t, htip⟩ := hon
    have htip' : chainActive.tip = (above ++ t.reverse).reverse ++ f :: s := by
      rw [← htip]
      simp
    rw [getKernelStakeModifierV03_onChain params chainActive mapBlockIndex fPrintProofOfStake
      nAdjustedTime ht htip' ⟨t, htip⟩ (List.suffix_append _ _) hidx] at h
    obtain ⟨c, hc, hg, hlate, rfl⟩ := find?_late_eq_ok h
    obtain ⟨r, hcr, hfr⟩ := exists_suffix_of_mem (f := f) (s := s) hc
    exact ⟨c, r, .inr (htip' ▸ hcr), hfr, hg, by omega, rfl⟩
  · -- off it: an entry of `tmpChain`, on `pindexPrev`'s chain
    rw [getKernelStakeModifierV03_offChain params chainActive mapBlockIndex fPrintProofOfStake
      nAdjustedTime ht hp hon hidx] at h
    obtain ⟨c, hc, hg, hlate, rfl⟩ := find?_late_eq_ok h
    obtain ⟨r, hcr, hfr⟩ := exists_suffix_of_mem (f := f) (s := s) hc
    exact ⟨c, r, .inl hcr, hfr, hg, by omega, rfl⟩

end Walk

section ProofOfStake

variable (params : ConsensusParams) (ctx : StakeContext)

/-- **The kernel is hashed with a modifier generated after the coins.** On a block index with
consistent heights, an accepted proof of stake whose funding block `b` is an indexed entry of
`pindexPrev`'s chain has its `hashProofOfStake` computed from the modifier of a generated entry
`c` above `b`, on `pindexPrev`'s chain or on the active chain, at least a selection interval
after `b`: no modifier known when the coins confirmed can produce it. -/
theorem checkProofOfStake_modifier_late (ht : HeightsOk ctx.chainActive.tip) {block : CBlock}
    {pindexPrev : List CBlockIndex} (hp : HeightsOk pindexPrev)
    (hfund : ∀ tx txin txPrev hashBlock, block.vtx[1]? = some tx → tx.vin[0]? = some txin →
      ctx.getTransaction txin.prevout.hash = some (txPrev, hashBlock) →
      ∃ b r, b :: r <:+ pindexPrev ∧ hashBlock = b.hashBlock ∧
        ctx.mapBlockIndex b.hashBlock = some (b :: r))
    {hashProofOfStake : Nat}
    (h : checkProofOfStake params ctx block pindexPrev = .ok hashProofOfStake) :
    ∃ (tx : CTransaction) (txin : CTxIn) (txPrev : CTransaction) (b c : CBlockIndex)
      (r r' : List CBlockIndex),
      block.vtx[1]? = some tx ∧ tx.vin[0]? = some txin ∧
      ctx.getTransaction txin.prevout.hash = some (txPrev, b.hashBlock) ∧ b :: r <:+ pindexPrev ∧
      (c :: r' <:+ pindexPrev ∨ c :: r' <:+ ctx.chainActive.tip) ∧ b :: r <:+ r' ∧
      c.generatedStakeModifier = true ∧
      b.nTime + getStakeModifierSelectionInterval params ≤ c.nTime ∧
      hashProofOfStake = ctx.hashKernel c.nStakeModifier b.nTime b.nTime txin.prevout.n block.nTime := by
  rcases pindexPrev with _ | ⟨prev, pprev⟩
  · cases h
  obtain ⟨tx, txin, txPrev, hashBlock, _, header, _, hvtx, -, hvin, -, hget, -, -, hhdr, -, -, hk⟩ :=
    checkProofOfStake_eq_ok params ctx h
  obtain ⟨b, r, hbr, rfl, hidx⟩ := hfund tx txin txPrev hashBlock hvtx hvin hget
  obtain rfl : header = ⟨b.hashBlock, b.nTime⟩ := by
    rw [lookupHeader, hidx] at hhdr
    exact (Except.ok.inj hhdr).symm
  obtain ⟨-, _, _, nStakeModifier, nHeight, nTime, -, -, -, hmod, rfl, -⟩ :=
    checkStakeKernelHash_eq_ok params ctx.toKernelContext hk
  obtain ⟨c, r', hc, hbr', hg, hlate, hx⟩ := getKernelStakeModifierV03_late params ctx.chainActive
    ctx.mapBlockIndex false ctx.nAdjustedTime ht hp hbr hidx hmod
  obtain ⟨rfl, -, -⟩ := Prod.mk.inj_iff.mp hx
  exact ⟨tx, txin, txPrev, b, c, r, r', hvtx, hvin, hget, hbr, hc, hbr', hg, hlate, rfl⟩

end ProofOfStake

/-! The proof of stake of `coinstakeBlock 0` on `kernelC`: the coins are in `kernelGenesis` at
time `0`, and the modifier is `kernelC`'s, generated at time `3000 ≥ 0 + 2087`. -/

theorem checkProofOfStake_modifier_late_exampleGenesis :
    checkProofOfStake mainParams zeroHashContext (coinstakeBlock 0)
        [kernelC, kernelB, kernelA, kernelGenesis] = .ok 0 ∧
    ∃ (tx : CTransaction) (txin : CTxIn) (txPrev : CTransaction) (b c : CBlockIndex)
      (r r' : List CBlockIndex),
      (coinstakeBlock 0).vtx[1]? = some tx ∧ tx.vin[0]? = some txin ∧
      zeroHashContext.getTransaction txin.prevout.hash = some (txPrev, b.hashBlock) ∧
      b :: r <:+ [kernelC, kernelB, kernelA, kernelGenesis] ∧
      (c :: r' <:+ [kernelC, kernelB, kernelA, kernelGenesis] ∨
        c :: r' <:+ zeroHashContext.chainActive.tip) ∧ b :: r <:+ r' ∧
      c.generatedStakeModifier = true ∧
      b.nTime + getStakeModifierSelectionInterval mainParams ≤ c.nTime ∧
      0 = zeroHashContext.hashKernel c.nStakeModifier b.nTime b.nTime txin.prevout.n
        (coinstakeBlock 0).nTime := by
  have h : checkProofOfStake mainParams zeroHashContext (coinstakeBlock 0)
      [kernelC, kernelB, kernelA, kernelGenesis] = .ok 0 := by decide
  exact ⟨h, checkProofOfStake_modifier_late mainParams zeroHashContext (by decide) (by decide)
    (fun _ _ _ _ hvtx hvin hget => ⟨kernelGenesis, [], ⟨[kernelC, kernelB, kernelA], rfl⟩,
      coinstakeBlock_funded hvtx hvin hget, rfl⟩) h⟩

end Emrals
