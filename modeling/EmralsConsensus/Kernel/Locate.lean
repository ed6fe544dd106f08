import EmralsConsensus.Modifier.Select

/-!
# `GetKernelStakeModifierV03`: the modifier a selection interval after the staked block

From `pindexFrom`, the block holding the staked coins, the loop walks forward until it meets a
generated entry whose time is at least `pindexFrom`'s time plus the selection interval. It walks
`ChainActive().Next` while below the fork, and `tmpChain` (the part of `pindexPrev`'s chain off
the active chain, at most down to `pindexFrom`) above it.

* `collectTmpChain`: the `tmpChain` loop. `kernelAdvance`: one advance of `pindex`, reading
  `tmpChain[n++]` or calling `Next`. `kernelLoop`: the `while` loop, with fuel.
* `getKernelStakeModifierV03`: `(nStakeModifier, nStakeModifierHeight, nStakeModifierTime)`, or
  the `std::length_error` of `tmpChain.reserve(nDepth)` for a negative `nDepth`.
* `getKernelStakeModifierV03_readsAbovePrev`: with `pindexPrev` on the active chain below the
  tip, `Next` walks past `pindexPrev` and the result is a block that is not its ancestor.
* `getKernelStakeModifierV03_readsPastTmpChain`: with `pindexPrev` on a fork that ends before the
  interval is covered, the walk reads `tmpChain[tmpChain.size()]`.
-/

namespace Emrals

section Walk

variable (params : ConsensusParams) (chainActive : CChain)

/-- The `tmpChain` loop: from `it = pindexPrev`, push at most `nDepth` entries while
`!ChainActive().Contains(it)`, in the order the walk meets them. -/
def collectTmpChain : Nat → List CBlockIndex → Except Failure (List (List CBlockIndex))
  | 0, _ => .ok []
  | _ + 1, [] => .error (.undefined "null dereference in ChainActive().Contains(it)")
  | k + 1, it@(_ :: pprev) =>
    if chainActive.contains it then .ok []
    else (collectTmpChain k pprev).map (it :: ·)

/-- `pindex = (!tmpChain.empty() && pindex->nHeight >= tmpChain[0]->nHeight - 1) ?
tmpChain[n++] : ChainActive().Next(pindex)`, with the new `n`. -/
def kernelAdvance (tmpChain : List (List CBlockIndex)) :
    List CBlockIndex → Nat → Except Failure (List CBlockIndex × Nat)
  | [], _ => .error (.undefined "null dereference of pindex")
  | pindex@(b :: _), n =>
    match tmpChain with
    | [] => .ok (chainActive.next pindex, n)
    | [] :: _ => .error (.undefined "null dereference of tmpChain[0]")
    | (t0 :: _) :: _ =>
      if (b.nHeight : Int) ≥ (t0.nHeight : Int) - 1 then
        match tmpChain[n]? with
        | some p => .ok (p, n + 1)
        | none => .error (.undefined "tmpChain[n] with n >= tmpChain.size()")
      else .ok (chainActive.next pindex, n)

/-- "Reached best block": `error(...)` when printing or when `old_pindex` is recent enough, a
plain `false` otherwise (the formatted hashes and height of the message are left out). -/
def reachedBestBlock (fPrintProofOfStake : Bool) (nAdjustedTime : Int)
    (nStakeModifierSelectionInterval : Nat) (old : CBlockIndex) : Failure :=
  if fPrintProofOfStake || decide ((old.nTime : Int) + params.nStakeMinAge -
      nStakeModifierSelectionInterval > nAdjustedTime) then
    .reject "GetKernelStakeModifier() : reached best block"
  else .reject ""

/-- The `while` loop: while the modifier time is below `nThreshold`
(`pindexFrom->GetBlockTime() + nStakeModifierSelectionInterval`), advance `pindex`, stop at the
best block, and record each generated entry's height and time. `fuel` bounds the iterations. -/
def kernelLoop (tmpChain : List (List CBlockIndex)) (nThreshold : Int) (fPrintProofOfStake : Bool)
    (nAdjustedTime : Int) (nStakeModifierSelectionInterval : Nat) :
    Nat → List CBlockIndex → Nat → Nat × Nat → Except Failure (List CBlockIndex × Nat × Nat)
  | 0, _, _, _ => .error .outOfFuel
  | fuel + 1, pindex, n, (nStakeModifierHeight, nStakeModifierTime) =>
    if (nStakeModifierTime : Int) < nThreshold then
      match kernelAdvance chainActive tmpChain pindex n, pindex with
      | .error e, _ => .error e
      | .ok _, [] => .error (.undefined "null dereference of old_pindex")
      | .ok ([], _), old :: _ => .error
        (reachedBestBlock params fPrintProofOfStake nAdjustedTime nStakeModifierSelectionInterval
          old)
      | .ok (pindex'@(b :: _), n'), old :: _ =>
        if n' > tmpChain.length then .error
          (reachedBestBlock params fPrintProofOfStake nAdjustedTime nStakeModifierSelectionInterval
            old)
        else
          kernelLoop tmpChain nThreshold fPrintProofOfStake nAdjustedTime
            nStakeModifierSelectionInterval fuel pindex' n'
            (if b.generatedStakeModifier then (b.nHeight, b.nTime)
              else (nStakeModifierHeight, nStakeModifierTime))
    else .ok (pindex, nStakeModifierHeight, nStakeModifierTime)

/-- `GetKernelStakeModifierV03(pindexPrev, hashBlockFrom, ...)`: `(nStakeModifier,
nStakeModifierHeight, nStakeModifierTime)`. `tmpChain.reserve` throws `std::length_error` when
`pindexFrom` is more than one block above `pindexPrev`. The walk's fuel is one iteration per entry
of the active chain and of `tmpChain`, and one more. -/
def getKernelStakeModifierV03 (mapBlockIndex : BlockMap) (pindexPrev : List CBlockIndex)
    (hashBlockFrom : Nat) (fPrintProofOfStake : Bool) (nAdjustedTime : Int) :
    Except Failure (Nat × Nat × Nat) :=
  match mapBlockIndex hashBlockFrom, pindexPrev with
  | none, _ => .error (.reject "GetKernelStakeModifier() : block not indexed")
  | some [], _ => .error (.undefined "null entry in BlockIndex()")
  | some (_ :: _), [] => .error (.undefined "null dereference of pindexPrev")
  | some pindexFrom@(bFrom :: _), prev :: _ =>
    let nSelectionInterval := getStakeModifierSelectionInterval params
    let nDepth : Int := (prev.nHeight : Int) - ((bFrom.nHeight : Int) - 1)
    -- `tmpChain.reserve(nDepth)` takes a `size_t`: a negative `nDepth` is above `max_size()`
    if nDepth < 0 then .error (.thrown "vector::reserve") else do
    let tmpChain := (← collectTmpChain chainActive nDepth.toNat pindexPrev).reverse
    let (pindex, nStakeModifierHeight, nStakeModifierTime) ←
      kernelLoop params chainActive tmpChain (bFrom.nTime + nSelectionInterval) fPrintProofOfStake
        nAdjustedTime nSelectionInterval (chainActive.tip.length + tmpChain.length + 1) pindexFrom 0
        (bFrom.nHeight, bFrom.nTime)
    match pindex with
    | b :: _ => .ok (b.nStakeModifier, nStakeModifierHeight, nStakeModifierTime)
    | [] => .error (.undefined "null dereference of pindex")

end Walk

/-! ## Two walks that leave `pindexPrev`'s ancestors

Main-network parameters (a selection interval of `2087` seconds). A genesis `kernelGenesis` at
time `0`, then `kernelA` and `kernelB` that do not generate, then `kernelC` at height `3` that
generates at time `3000 ≥ 0 + 2087`. -/

def kernelGenesis : CBlockIndex := ⟨0, 0, 1, false, true, true, 0, 0, 0, by decide⟩

def kernelA : CBlockIndex := ⟨1, 100, 2, false, false, false, 0, 0, 0, by decide⟩

def kernelB : CBlockIndex := ⟨2, 200, 3, false, true, false, 0, 0, 0, by decide⟩

def kernelC : CBlockIndex := ⟨3, 3000, 4, true, true, true, 42, 7, 0, by decide⟩

/-- A fork of `kernelA`, off the active chain `kernelGenesis, kernelA`. -/
def kernelFork : CBlockIndex := ⟨2, 250, 5, true, false, false, 0, 8, 0, by decide⟩

/-- The index of all five entries. -/
def kernelIndex : BlockMap :=
  insertEntry (insertEntry (insertEntry (insertEntry (insertEntry (fun _ => none) kernelGenesis [])
    kernelA [kernelGenesis]) kernelB [kernelA, kernelGenesis]) kernelC
    [kernelB, kernelA, kernelGenesis]) kernelFork [kernelA, kernelGenesis]

example : getKernelStakeModifierV03 mainParams ⟨[kernelA, kernelGenesis]⟩ kernelIndex
    [kernelGenesis] kernelC.hashBlock false 0 = .error (.thrown "vector::reserve") := by
  decide

/-- **`pindexPrev` on the active chain below the tip.** With `pindexPrev = kernelB` and the
active chain up to `kernelC`, no ancestor of `kernelB` above the genesis generates late enough,
yet the call succeeds with `kernelC`'s modifier, height and time: `Next` walks past
`pindexPrev`. -/
theorem getKernelStakeModifierV03_readsAbovePrev :
    Indexed kernelIndex [kernelC, kernelB, kernelA, kernelGenesis] ∧
    HeightsOk [kernelC, kernelB, kernelA, kernelGenesis] ∧
    [kernelB, kernelA, kernelGenesis] <:+ [kernelC, kernelB, kernelA, kernelGenesis] ∧
    (∀ b ∈ [kernelB, kernelA], ¬ (b.generatedStakeModifier = true ∧
      kernelGenesis.nTime + getStakeModifierSelectionInterval mainParams ≤ b.nTime)) ∧
    getKernelStakeModifierV03 mainParams ⟨[kernelC, kernelB, kernelA, kernelGenesis]⟩ kernelIndex
        [kernelB, kernelA, kernelGenesis] kernelGenesis.hashBlock false 0 =
      .ok (kernelC.nStakeModifier, kernelC.nHeight, kernelC.nTime) := by
  decide

/-- **`pindexPrev` on a fork that ends too early.** With the active chain
`kernelGenesis, kernelA`, `pindexPrev = kernelFork` and `pindexFrom = kernelA`, `tmpChain` is
`[kernelFork]`; the walk reads `tmpChain[0]`, finds no late generated entry, and then reads
`tmpChain[1]`, past its end, before the `n > tmpChain.size()` check. -/
theorem getKernelStakeModifierV03_readsPastTmpChain :
    Indexed kernelIndex [kernelFork, kernelA, kernelGenesis] ∧
    HeightsOk [kernelFork, kernelA, kernelGenesis] ∧
    collectTmpChain ⟨[kernelA, kernelGenesis]⟩ 2 [kernelFork, kernelA, kernelGenesis] =
      .ok [[kernelFork, kernelA, kernelGenesis]] ∧
    getKernelStakeModifierV03 mainParams ⟨[kernelA, kernelGenesis]⟩ kernelIndex
        [kernelFork, kernelA, kernelGenesis] kernelA.hashBlock false 0 =
      .error (.undefined "tmpChain[n] with n >= tmpChain.size()") := by
  decide

end Emrals
