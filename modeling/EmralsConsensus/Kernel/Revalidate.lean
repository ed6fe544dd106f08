import EmralsConsensus.Kernel.Walk
import EmralsConsensus.Kernel.ProofOfStake

/-!
# Checking a proof of stake again, and on another node

A node checks a block's proof of stake against its block index and its active chain, and may
check it again later; another node checks it against its own. Between the two checks the index
only gains entries (`Extends`), and without a reorganisation the active chain grows on top of its
old tip; another node's index may hold other side branches.

* `find?_late_append`: a generated entry met first among the walked entries is met first among
  them followed by more.
* `getKernelStakeModifierV03_stable`: the walk finds the same modifier, height and time again,
  whether `pindexPrev` was on the old active chain, is on the new one only, or on neither.
* `checkStakeKernelHash_of_modifier`: the kernel check reads the context only through the
  modifier lookup and the kernel hash.
* `checkProofOfStake_transfer`: a second check accepts what a first accepted when its index
  stores the funding entry as the first did and its walk finds the same modifier again.
* **`checkProofOfStake_stable`**: a proof of stake whose funding block is on `pindexPrev`'s
  chain, once accepted, is accepted again with the same `hashProofOfStake`.
* `getKernelStakeModifierV03_congr_index`, `getLastHeight_congr`: the walk and the depth lookup
  read the block index at one hash each. **`checkProofOfStake_agree`**: two nodes with one active
  chain that store the same entries for `pindexPrev`'s chain accept the same proofs of stake,
  whatever side branches their indexes hold.
-/

namespace Emrals

section Walk

variable (params : ConsensusParams) (fPrintProofOfStake : Bool) (nAdjustedTime : Int)

theorem find?_late_append {L : List CBlockIndex} (L' : List CBlockIndex) {nThreshold : Int}
    {e e' : Failure} {x : Nat × Nat × Nat}
    (h : (match L.find? (isLate nThreshold) with
      | some c => .ok (c.nStakeModifier, c.nHeight, c.nTime)
      | none => .error e : Except Failure (Nat × Nat × Nat)) = .ok x) :
    (match (L ++ L').find? (isLate nThreshold) with
      | some c => .ok (c.nStakeModifier, c.nHeight, c.nTime)
      | none => .error e' : Except Failure (Nat × Nat × Nat)) = .ok x := by
  rcases hc : L.find? (isLate nThreshold) with _ | c <;> rw [hc] at h
  · cases h
  · rw [List.find?_append, hc]
    exact h

theorem getKernelStakeModifierV03_congr_index {chainActive : CChain}
    {mapBlockIndex mapBlockIndex' : BlockMap} {pindexPrev : List CBlockIndex} {hashBlockFrom : Nat}
    (h : mapBlockIndex' hashBlockFrom = mapBlockIndex hashBlockFrom) :
    getKernelStakeModifierV03 params chainActive mapBlockIndex' pindexPrev hashBlockFrom
        fPrintProofOfStake nAdjustedTime =
      getKernelStakeModifierV03 params chainActive mapBlockIndex pindexPrev hashBlockFrom
        fPrintProofOfStake nAdjustedTime := by
  unfold getKernelStakeModifierV03
  rw [h]

theorem getKernelStakeModifierV03_stable {chainActive chainActive' : CChain}
    (ht' : HeightsOk chainActive'.tip) (hgrow : chainActive.tip <:+ chainActive'.tip)
    {mapBlockIndex mapBlockIndex' : BlockMap} {f : CBlockIndex} {s pindexPrev : List CBlockIndex}
    (hp : HeightsOk pindexPrev) (hf : f :: s <:+ pindexPrev)
    (hidx : mapBlockIndex f.hashBlock = some (f :: s))
    (hidx' : mapBlockIndex' f.hashBlock = some (f :: s)) {x : Nat × Nat × Nat}
    (h : getKernelStakeModifierV03 params chainActive mapBlockIndex pindexPrev f.hashBlock
      fPrintProofOfStake nAdjustedTime = .ok x) :
    getKernelStakeModifierV03 params chainActive' mapBlockIndex' pindexPrev f.hashBlock
      fPrintProofOfStake nAdjustedTime = .ok x := by
  have ht : HeightsOk chainActive.tip := ht'.of_suffix hgrow
  obtain ⟨a, rfl⟩ := hf
  obtain ⟨above, rfl⟩ : ∃ above, a = above.reverse := ⟨a.reverse, (List.reverse_reverse a).symm⟩
  by_cases hon' : above.reverse ++ f :: s <:+ chainActive'.tip
  · -- on the new chain the walk climbs `above`, then the entries above `pindexPrev`
    obtain ⟨t, htip'⟩ := hon'
    rw [getKernelStakeModifierV03_onChain params chainActive' mapBlockIndex' fPrintProofOfStake
      nAdjustedTime ht' (by rw [← htip']; simp : chainActive'.tip = (above ++ t.reverse).reverse ++
        f :: s) ⟨t, htip'⟩ (List.suffix_append _ _) hidx']
    by_cases hon : above.reverse ++ f :: s <:+ chainActive.tip
    · obtain ⟨u, htip⟩ := hon
      rw [getKernelStakeModifierV03_onChain params chainActive mapBlockIndex fPrintProofOfStake
        nAdjustedTime ht (by rw [← htip]; simp : chainActive.tip = (above ++ u.reverse).reverse ++
          f :: s) ⟨u, htip⟩ (List.suffix_append _ _) hidx] at h
      obtain ⟨v, hv⟩ := hgrow
      have htu : t = v ++ u := List.append_cancel_right (by rw [htip', ← hv, ← htip, List.append_assoc])
      rw [htu, List.reverse_append, ← List.append_assoc]
      exact find?_late_append v.reverse h
    · rw [getKernelStakeModifierV03_offChain params chainActive mapBlockIndex fPrintProofOfStake
        nAdjustedTime ht hp hon hidx] at h
      exact find?_late_append t.reverse h
  · -- off both chains the walk reads `tmpChain`, which is `above` both times
    have hon : ¬ above.reverse ++ f :: s <:+ chainActive.tip := fun hon => hon' (hon.trans hgrow)
    rw [getKernelStakeModifierV03_offChain params chainActive' mapBlockIndex' fPrintProofOfStake
      nAdjustedTime ht' hp hon' hidx']
    rwa [getKernelStakeModifierV03_offChain params chainActive mapBlockIndex fPrintProofOfStake
      nAdjustedTime ht hp hon hidx] at h

end Walk

section ProofOfStake

variable (params : ConsensusParams)

theorem getLastHeight_congr {ctx ctx' : StakeContext}
    (hget : ctx'.getTransaction = ctx.getTransaction) {txHash : Nat} {txPrev : CTransaction}
    {hashBlock : Nat} (hfound : ctx.getTransaction txHash = some (txPrev, hashBlock))
    (hM : ctx'.mapBlockIndex hashBlock = ctx.mapBlockIndex hashBlock) :
    getLastHeight ctx' txHash = getLastHeight ctx txHash := by
  simp only [getLastHeight, hget, hfound, hM]

theorem checkStakeKernelHash_of_modifier {ctx ctx' : KernelContext}
    (hkern : ctx'.hashKernel = ctx.hashKernel) {nBits nTimeTx : Nat} {prev : CBlockIndex}
    {pprev : List CBlockIndex} {blockFrom : CBlockHeader} {txPrev : CTransaction}
    {prevout : COutPoint} {hashProofOfStake : Nat}
    (h : checkStakeKernelHash params ctx nBits (prev :: pprev) blockFrom txPrev prevout nTimeTx =
      .ok hashProofOfStake)
    (hmod : ∀ x, getKernelStakeModifierV03 params ctx.chainActive ctx.mapBlockIndex (prev :: pprev)
        blockFrom.hashBlock false ctx.nAdjustedTime = .ok x →
      getKernelStakeModifierV03 params ctx'.chainActive ctx'.mapBlockIndex (prev :: pprev)
        blockFrom.hashBlock false ctx'.nAdjustedTime = .ok x) :
    checkStakeKernelHash params ctx' nBits (prev :: pprev) blockFrom txPrev prevout nTimeTx =
      .ok hashProofOfStake := by
  obtain ⟨hage, txout, w, nStakeModifier, nHeight, nTime, hout, hmin, hw, hv, rfl, hle⟩ :=
    checkStakeKernelHash_eq_ok params ctx h
  rw [checkStakeKernelHash_eq params ctx' hage hout hmin hw (hmod _ hv), hkern]
  exact if_pos hle

/-- What a second check needs to accept what a first one accepted: with the other fields as they
were, the second index stores the funding entry of `pindexPrev`'s chain as the first did, and the
walk finds again from it the modifier it found first. -/
theorem checkProofOfStake_transfer (ctx : StakeContext) {mapBlockIndex' : BlockMap}
    {chainActive' : CChain} {block : CBlock} {pindexPrev : List CBlockIndex}
    (hfund : ∀ tx txin txPrev hashBlock, block.vtx[1]? = some tx → tx.vin[0]? = some txin →
      ctx.getTransaction txin.prevout.hash = some (txPrev, hashBlock) →
      ∃ b r, b :: r <:+ pindexPrev ∧ hashBlock = b.hashBlock ∧
        ctx.mapBlockIndex b.hashBlock = some (b :: r))
    (hfrom : ∀ b r, b :: r <:+ pindexPrev → ctx.mapBlockIndex b.hashBlock = some (b :: r) →
      mapBlockIndex' b.hashBlock = some (b :: r) ∧ ∀ x,
        getKernelStakeModifierV03 params ctx.chainActive ctx.mapBlockIndex pindexPrev b.hashBlock
          false ctx.nAdjustedTime = .ok x →
        getKernelStakeModifierV03 params chainActive' mapBlockIndex' pindexPrev b.hashBlock false
          ctx.nAdjustedTime = .ok x)
    {hashProofOfStake : Nat} (h : checkProofOfStake params ctx block pindexPrev = .ok hashProofOfStake) :
    checkProofOfStake params { ctx with mapBlockIndex := mapBlockIndex', chainActive := chainActive' }
      block pindexPrev = .ok hashProofOfStake := by
  rcases pindexPrev with _ | ⟨prev, pprev⟩
  · cases h
  obtain ⟨tx, txin, txPrev, hashBlock, nBlockFromHeight, header, txout, hvtx, hcs, hvin, htxi, hget,
    hlast, hhard, hhdr, hout, hscript, hk⟩ := checkProofOfStake_eq_ok params ctx h
  obtain ⟨b, r, hbr, rfl, hidx⟩ := hfund tx txin txPrev hashBlock hvtx hvin hget
  obtain ⟨hidx', hmod⟩ := hfrom b r hbr hidx
  -- the header is the funding entry's, in both indexes
  obtain rfl : header = ⟨b.hashBlock, b.nTime⟩ := by
    rw [lookupHeader, hidx] at hhdr
    exact (Except.ok.inj hhdr).symm
  have hhdr' : lookupHeader { ctx with mapBlockIndex := mapBlockIndex', chainActive := chainActive' }
      b.hashBlock = .ok ⟨b.hashBlock, b.nTime⟩ := by
    simp only [lookupHeader, hidx']
  exact checkProofOfStake_of_parts params
    { ctx with mapBlockIndex := mapBlockIndex', chainActive := chainActive' } hvtx hcs hvin htxi hget
    (Eq.trans (getLastHeight_congr (by rfl) hget (hidx'.trans hidx.symm)) hlast) hhard hhdr' hout
    hscript (checkStakeKernelHash_of_modifier params (by rfl) hk hmod)

/-- **An accepted proof of stake stays accepted.** Checked again after the block index has gained
entries and the active chain has grown on top of its old tip, a proof of stake whose funding
block is an indexed entry of `pindexPrev`'s chain is accepted with the same hash. -/
theorem checkProofOfStake_stable (ctx : StakeContext) {mapBlockIndex' : BlockMap}
    {chainActive' : CChain} (hext : Extends ctx.mapBlockIndex mapBlockIndex')
    (ht' : HeightsOk chainActive'.tip) (hgrow : ctx.chainActive.tip <:+ chainActive'.tip)
    {block : CBlock} {pindexPrev : List CBlockIndex} (hp : HeightsOk pindexPrev)
    (hfund : ∀ tx txin txPrev hashBlock, block.vtx[1]? = some tx → tx.vin[0]? = some txin →
      ctx.getTransaction txin.prevout.hash = some (txPrev, hashBlock) →
      ∃ b r, b :: r <:+ pindexPrev ∧ hashBlock = b.hashBlock ∧
        ctx.mapBlockIndex b.hashBlock = some (b :: r))
    {hashProofOfStake : Nat} (h : checkProofOfStake params ctx block pindexPrev = .ok hashProofOfStake) :
    checkProofOfStake params { ctx with mapBlockIndex := mapBlockIndex', chainActive := chainActive' }
      block pindexPrev = .ok hashProofOfStake :=
  checkProofOfStake_transfer params ctx hfund (fun _ _ hbr hidx => ⟨hext _ _ hidx, fun _ hx =>
    getKernelStakeModifierV03_stable params false ctx.nAdjustedTime ht' hgrow hp hbr hidx
      (hext _ _ hidx) hx⟩) h

/-- **Nodes agree on proofs of stake.** Two nodes with one active chain, whose block indexes
store the same entries under the hashes of `pindexPrev`'s chain, whatever side branches either
holds besides, accept the same proofs of stake funded on that chain, with the same hash. -/
theorem checkProofOfStake_agree (ctx : StakeContext) {mapBlockIndex' : BlockMap}
    {block : CBlock} {pindexPrev : List CBlockIndex}
    (hagree : ∀ b ∈ pindexPrev, mapBlockIndex' b.hashBlock = ctx.mapBlockIndex b.hashBlock)
    (hfund : ∀ tx txin txPrev hashBlock, block.vtx[1]? = some tx → tx.vin[0]? = some txin →
      ctx.getTransaction txin.prevout.hash = some (txPrev, hashBlock) →
      ∃ b r, b :: r <:+ pindexPrev ∧ hashBlock = b.hashBlock ∧
        ctx.mapBlockIndex b.hashBlock = some (b :: r))
    {hashProofOfStake : Nat} :
    checkProofOfStake params { ctx with mapBlockIndex := mapBlockIndex' } block pindexPrev =
        .ok hashProofOfStake ↔
      checkProofOfStake params ctx block pindexPrev = .ok hashProofOfStake := by
  have hon : ∀ {b r}, b :: r <:+ pindexPrev → mapBlockIndex' b.hashBlock = ctx.mapBlockIndex b.hashBlock :=
    fun hbr => hagree _ (hbr.subset (List.mem_cons_self _ _))
  refine ⟨fun h => checkProofOfStake_transfer params { ctx with mapBlockIndex := mapBlockIndex' }
    (fun tx txin txPrev hashBlock hvtx hvin hget => ?_) (fun _ _ hbr hidx => ⟨(hon hbr).symm.trans hidx,
      fun _ hx => (getKernelStakeModifierV03_congr_index params false _ (hon hbr)).symm.trans hx⟩) h,
    fun h => checkProofOfStake_transfer params ctx hfund (fun _ _ hbr hidx => ⟨(hon hbr).trans hidx,
      fun _ hx => (getKernelStakeModifierV03_congr_index params false _ (hon hbr)).trans hx⟩) h⟩
  obtain ⟨b, r, hbr, rfl, hidx⟩ := hfund tx txin txPrev hashBlock hvtx hvin hget
  exact ⟨b, r, hbr, rfl, (hon hbr).trans hidx⟩

end ProofOfStake

/-! ## One stake, checked before and after the active chain reaches it

First against `kernelIndex` without `kernelFork` and an active chain up to `kernelA`, so that the
walk reads `kernelB` and `kernelC` from `tmpChain`; then with the fork indexed and the active
chain up to `kernelC`, so that it reads them with `Next`. -/

/-- `kernelIndex` before `kernelFork` arrives. -/
def kernelMainIndex : BlockMap :=
  insertEntry (insertEntry (insertEntry (insertEntry (fun _ => none) kernelGenesis [])
    kernelA [kernelGenesis]) kernelB [kernelA, kernelGenesis]) kernelC
    [kernelB, kernelA, kernelGenesis]

/-- `zeroHashContext` at the first check. -/
def earlyZeroHashContext : StakeContext :=
  { zeroHashContext with
    mapBlockIndex := kernelMainIndex
    chainActive := ⟨[kernelA, kernelGenesis]⟩ }

theorem checkProofOfStake_stable_exampleGrowth :
    checkProofOfStake mainParams earlyZeroHashContext (coinstakeBlock 0)
        [kernelC, kernelB, kernelA, kernelGenesis] = .ok 0 ∧
    checkProofOfStake mainParams
        { earlyZeroHashContext with
          mapBlockIndex := kernelIndex
          chainActive := ⟨[kernelC, kernelB, kernelA, kernelGenesis]⟩ }
        (coinstakeBlock 0) [kernelC, kernelB, kernelA, kernelGenesis] = .ok 0 := by
  have h : checkProofOfStake mainParams earlyZeroHashContext (coinstakeBlock 0)
      [kernelC, kernelB, kernelA, kernelGenesis] = .ok 0 := by decide
  exact ⟨h, checkProofOfStake_stable mainParams earlyZeroHashContext
    (insertEntry_extends (by decide) [kernelA, kernelGenesis]) (by decide) ⟨[kernelC, kernelB], rfl⟩
    (by decide) (fun _ _ _ _ hvtx hvin hget => ⟨kernelGenesis, [], ⟨[kernelC, kernelB, kernelA], rfl⟩,
      coinstakeBlock_funded hvtx hvin hget, rfl⟩) h⟩

/-! A node without the side branch `kernelFork` and `zeroHashContext`, which holds it, agree on
the proof of stake of `coinstakeBlock 0` on `kernelC`, which both accept. -/

theorem checkProofOfStake_agree_exampleSideBranch :
    (∀ b ∈ [kernelC, kernelB, kernelA, kernelGenesis],
      kernelMainIndex b.hashBlock = zeroHashContext.mapBlockIndex b.hashBlock) ∧
    checkProofOfStake mainParams zeroHashContext (coinstakeBlock 0)
      [kernelC, kernelB, kernelA, kernelGenesis] = .ok 0 ∧
    (checkProofOfStake mainParams { zeroHashContext with mapBlockIndex := kernelMainIndex }
        (coinstakeBlock 0) [kernelC, kernelB, kernelA, kernelGenesis] = .ok 0 ↔
      checkProofOfStake mainParams zeroHashContext (coinstakeBlock 0)
        [kernelC, kernelB, kernelA, kernelGenesis] = .ok 0) :=
  ⟨by decide, by decide, checkProofOfStake_agree mainParams zeroHashContext (by decide)
    fun _ _ _ _ hvtx hvin hget => ⟨kernelGenesis, [], ⟨[kernelC, kernelB, kernelA], rfl⟩,
      coinstakeBlock_funded hvtx hvin hget, rfl⟩⟩

end Emrals
