import EmralsConsensus.Kernel.Locate
import EmralsConsensus.Tx.Check

/-!
# `CheckStakeKernelHash`: the kernel hash against the weighted target

* `setCompact`: the compact target decoding. `KernelContext`: the block index, the active chain,
  the adjusted time and the kernel hash, which is not modelled (SHA-256d).
* `coinDayWeight`: `nValueIn * nTimeWeight / COIN / 200` on `int64_t`, converted to
  `arith_uint256`.
* `checkStakeKernelHash`: the two age checks with their legacy and hardened texts, the
  unchecked `txPrev->vout[prevout.n]`, the minimum stake, the modifier lookup and the comparison
  with the product modulo `2 ^ 256`.
* `checkStakeKernelHash_eq_ok`: what an accepted kernel satisfies.
* `checkStakeKernelHash_eq`: past its checks, the call accepts exactly when the hash is at most
  the weight times the target modulo `2 ^ 256`; **`checkStakeKernelHash_of_bounds`**: when
  `nValueIn * nTimeWeight` fits `int64_t` and the product is below `2 ^ 256`, that is the
  comparison over unbounded integers; **`checkStakeKernelHash_mono_value`**: there, a kernel
  accepted for some coins is accepted for more.
* `checkStakeKernelHash_wrapsTarget`: on the main network a stake of `10000` coins at full
  weight against a near-`powLimit` target wraps the product; a stake of `1113935` coins
  overflows `int64_t`.
-/

namespace Emrals

/-- A `CBlockHeader` as the kernel reads it: `GetHash()` and `GetBlockTime()`. -/
structure CBlockHeader where
  hashBlock : Nat
  nTime : Nat
  deriving DecidableEq, Repr

/-- Modelled from the spec's `compact_to_u256(bits)`, by Bitcoin's
`arith_uint256::SetCompact` (arith_uint256.cpp is not under src/): the 23-bit mantissa shifted by
`8 * (size - 3)` bits within 256 bits. The sign and overflow flags are not read by the kernel. -/
def setCompact (nCompact : Nat) : Nat :=
  let nSize := nCompact >>> 24
  let nWord := nCompact &&& 0x007fffff
  if nSize ≤ 3 then nWord >>> (8 * (3 - nSize)) else (nWord <<< (8 * (nSize - 3))) % 2 ^ 256

example : setCompact 0x1e0fffff = 0x0fffff * 2 ^ 216 := by decide

/-- What the kernel check reads besides its arguments: `::BlockIndex()`, `ChainActive()`,
`GetAdjustedTime()`, and the kernel hash `Hash(nStakeModifier ‖ nTimeBlockFrom ‖ txPrevTime ‖
prevout.n ‖ nTimeTx)` as an `arith_uint256`, below `2 ^ 256`. -/
structure KernelContext where
  mapBlockIndex : BlockMap
  chainActive : CChain
  nAdjustedTime : Int
  hashKernel : Nat → Nat → Nat → Nat → Nat → Nat
  hashKernel_lt : ∀ m a b c d, hashKernel m a b c d < 2 ^ 256

section Kernel

variable (params : ConsensusParams) (ctx : KernelContext)

/-- `nTimeWeight = min(nTimeTx - txPrevTime, nStakeMaxAge - nStakeMinAge)`. -/
def timeWeight (txPrevTime nTimeTx : Nat) : Int :=
  min ((nTimeTx : Int) - txPrevTime) ((params.nStakeMaxAge : Int) - params.nStakeMinAge)

/-- `arith_uint256 bnCoinDayWeight = nValueIn * nTimeWeight / COIN / 200`: the product on
`int64_t` (undefined on overflow), truncating divisions, then the conversion from `uint64_t`. -/
def coinDayWeight (nValueIn nTimeWeight : Int) : Except Failure Nat := do
  let nWeighted ← int64Mul nValueIn nTimeWeight
  .ok (arith256OfInt64 ((nWeighted.tdiv COIN).tdiv 200))

/-- `CheckStakeKernelHash(nBits, pindexPrev, blockFrom, txPrev, prevout, nTimeTx, ...)`: the
`hashProofOfStake` it accepts. `fPrintProofOfStake` is not read; the modifier lookup is called
with `false`. A plain `return false` is the reason `""`. -/
def checkStakeKernelHash (nBits : Nat) (pindexPrev : List CBlockIndex) (blockFrom : CBlockHeader)
    (txPrev : CTransaction) (prevout : COutPoint) (nTimeTx : Nat) : Except Failure Nat :=
  match pindexPrev with
  | [] => .error (.undefined "null dereference of pindexPrev")
  | prev :: _ =>
    let fHardenedChecks := decide (prev.nHeight + 1 > params.nStakeEnforcement)
    let txPrevTime := blockFrom.nTime
    if nTimeTx < txPrevTime then
      .error (.reject (if fHardenedChecks then
        "CheckStakeKernelHash: timestamp violation (nTimeTx < txPrevTime)"
        else "CheckStakeKernelHash: nTime violation"))
    else
    let nTimeBlockFrom := blockFrom.nTime
    if nTimeBlockFrom + params.nStakeMinAge > nTimeTx then
      .error (.reject (if fHardenedChecks then
        "CheckStakeKernelHash: min age violation (nTimeBlockFrom + params.nStakeMinAge > nTimeTx)"
        else "CheckStakeKernelHash: min age violation"))
    else
    let bnTargetPerCoinDay := setCompact nBits
    match txPrev.vout[prevout.n]? with
    | none => .error (.undefined "txPrev->vout[prevout.n] out of range")
    | some txout =>
      let nValueIn := txout.nValue
      if nValueIn < params.nMinStakeAmount ∧ fHardenedChecks then .error (.reject "")
      else do
        let bnCoinDayWeight ← coinDayWeight nValueIn (timeWeight params txPrevTime nTimeTx)
        let (nStakeModifier, _, _) ← rejectAs "" (getKernelStakeModifierV03 params ctx.chainActive
          ctx.mapBlockIndex pindexPrev blockFrom.hashBlock false ctx.nAdjustedTime)
        let hashProofOfStake :=
          ctx.hashKernel nStakeModifier nTimeBlockFrom txPrevTime prevout.n nTimeTx
        if hashProofOfStake > arith256Mul bnCoinDayWeight bnTargetPerCoinDay then
          .error (.reject "")
        else .ok hashProofOfStake

theorem checkStakeKernelHash_eq {nBits nTimeTx : Nat} {prev : CBlockIndex}
    {pprev : List CBlockIndex} {blockFrom : CBlockHeader} {txPrev : CTransaction}
    {prevout : COutPoint} {txout : CTxOut} {nStakeModifier nHeight nTime w : Nat}
    (hage : blockFrom.nTime + params.nStakeMinAge ≤ nTimeTx)
    (hout : txPrev.vout[prevout.n]? = some txout)
    (hmin : ¬ (txout.nValue < params.nMinStakeAmount ∧ params.nStakeEnforcement < prev.nHeight + 1))
    (hw : coinDayWeight txout.nValue (timeWeight params blockFrom.nTime nTimeTx) = .ok w)
    (hmod : getKernelStakeModifierV03 params ctx.chainActive ctx.mapBlockIndex (prev :: pprev)
      blockFrom.hashBlock false ctx.nAdjustedTime = .ok (nStakeModifier, nHeight, nTime)) :
    checkStakeKernelHash params ctx nBits (prev :: pprev) blockFrom txPrev prevout nTimeTx =
      let hashProofOfStake := ctx.hashKernel nStakeModifier blockFrom.nTime blockFrom.nTime
        prevout.n nTimeTx
      if hashProofOfStake ≤ arith256Mul w (setCompact nBits) then .ok hashProofOfStake
      else .error (.reject "") := by
  have hlt : ¬ nTimeTx < blockFrom.nTime := by omega
  have hgt : ¬ blockFrom.nTime + params.nStakeMinAge > nTimeTx := by omega
  simp only [checkStakeKernelHash, hlt, hgt, hout, if_false, hw, hmod, gt_iff_lt, decide_eq_true_eq,
    hmin, ok_bind, rejectAs_ok]
  split_ifs <;> first | rfl | omega

/-- **What an accepted kernel satisfies.** The coins are at least `nStakeMinAge` old, the staked
output exists and, under the hardened checks, is at least the minimum stake, the weight and the
modifier are computed, and the returned kernel hash is at most the weight times the target
modulo `2 ^ 256`. -/
theorem checkStakeKernelHash_eq_ok {nBits nTimeTx : Nat} {prev : CBlockIndex}
    {pprev : List CBlockIndex} {blockFrom : CBlockHeader} {txPrev : CTransaction}
    {prevout : COutPoint} {hashProofOfStake : Nat}
    (h : checkStakeKernelHash params ctx nBits (prev :: pprev) blockFrom txPrev prevout nTimeTx =
      .ok hashProofOfStake) :
    blockFrom.nTime + params.nStakeMinAge ≤ nTimeTx ∧
    ∃ txout w nStakeModifier nHeight nTime, txPrev.vout[prevout.n]? = some txout ∧
      ¬ (txout.nValue < params.nMinStakeAmount ∧ params.nStakeEnforcement < prev.nHeight + 1) ∧
      coinDayWeight txout.nValue (timeWeight params blockFrom.nTime nTimeTx) = .ok w ∧
      getKernelStakeModifierV03 params ctx.chainActive ctx.mapBlockIndex (prev :: pprev)
        blockFrom.hashBlock false ctx.nAdjustedTime = .ok (nStakeModifier, nHeight, nTime) ∧
      hashProofOfStake =
        ctx.hashKernel nStakeModifier blockFrom.nTime blockFrom.nTime prevout.n nTimeTx ∧
      hashProofOfStake ≤ arith256Mul w (setCompact nBits) := by
  simp only [checkStakeKernelHash, gt_iff_lt, decide_eq_true_eq] at h
  obtain ⟨hlt, h⟩ := ite_error_eq_ok.mp h
  obtain ⟨hage, h⟩ := ite_error_eq_ok.mp h
  rcases hout : txPrev.vout[prevout.n]? with _ | txout <;> simp only [hout, reduceCtorEq] at h
  obtain ⟨hmin, h⟩ := ite_error_eq_ok.mp h
  obtain ⟨w, hw, h⟩ := bind_eq_ok.mp h
  obtain ⟨⟨m, hh, ht⟩, hmod, h⟩ := bind_eq_ok.mp h
  obtain ⟨hgt, h⟩ := ite_error_eq_ok.mp h
  cases h
  exact ⟨by omega, txout, w, m, hh, ht, rfl, hmin, hw, rejectAs_eq_ok.mp hmod, rfl,
    not_lt.mp hgt⟩

theorem coinDayWeight_of_range {nValueIn nTimeWeight : Int} (hv : 0 ≤ nValueIn)
    (hw : 0 ≤ nTimeWeight) (hr : nValueIn * nTimeWeight ≤ INT64_MAX) :
    coinDayWeight nValueIn nTimeWeight = .ok (nValueIn * nTimeWeight / COIN / 200).toNat := by
  have h0 : 0 ≤ nValueIn * nTimeWeight := Int.mul_nonneg hv hw
  have hd : 0 ≤ nValueIn * nTimeWeight / COIN := Int.ediv_nonneg h0 (by decide)
  have hlt : nValueIn * nTimeWeight / COIN / 200 < 2 ^ 64 := by
    have := Int.ediv_le_self COIN h0
    have := Int.ediv_le_self 200 hd
    simp only [INT64_MAX] at hr
    omega
  rw [coinDayWeight, int64Mul_of_range ⟨by simp only [INT64_MIN]; omega, hr⟩, ok_bind,
    Int.tdiv_eq_ediv h0 (by decide), Int.tdiv_eq_ediv hd (by decide),
    arith256OfInt64_of_nonneg (Int.ediv_nonneg hd (by decide)) hlt]

/-- **The kernel check over unbounded integers, where nothing overflows.** When
`nValueIn * nTimeWeight` fits `int64_t` and the weight times the target is below `2 ^ 256`, a
call past its checks accepts exactly when the kernel hash is at most
`⌊⌊nValueIn * nTimeWeight / COIN⌋ / 200⌋ * target`. -/
theorem checkStakeKernelHash_of_bounds {nBits nTimeTx : Nat} {prev : CBlockIndex}
    {pprev : List CBlockIndex} {blockFrom : CBlockHeader} {txPrev : CTransaction}
    {prevout : COutPoint} {txout : CTxOut} {nStakeModifier nHeight nTime : Nat}
    (hage : blockFrom.nTime + params.nStakeMinAge ≤ nTimeTx)
    (hmaxAge : params.nStakeMinAge ≤ params.nStakeMaxAge)
    (hout : txPrev.vout[prevout.n]? = some txout)
    (hmin : ¬ (txout.nValue < params.nMinStakeAmount ∧ params.nStakeEnforcement < prev.nHeight + 1))
    (hv : 0 ≤ txout.nValue)
    (hr : txout.nValue * timeWeight params blockFrom.nTime nTimeTx ≤ INT64_MAX)
    (hprod : (txout.nValue * timeWeight params blockFrom.nTime nTimeTx / COIN / 200).toNat *
      setCompact nBits < 2 ^ 256)
    (hmod : getKernelStakeModifierV03 params ctx.chainActive ctx.mapBlockIndex (prev :: pprev)
      blockFrom.hashBlock false ctx.nAdjustedTime = .ok (nStakeModifier, nHeight, nTime)) :
    checkStakeKernelHash params ctx nBits (prev :: pprev) blockFrom txPrev prevout nTimeTx =
      let hashProofOfStake := ctx.hashKernel nStakeModifier blockFrom.nTime blockFrom.nTime
        prevout.n nTimeTx
      if hashProofOfStake ≤ (txout.nValue * timeWeight params blockFrom.nTime nTimeTx / COIN /
          200).toNat * setCompact nBits then .ok hashProofOfStake
      else .error (.reject "") := by
  have hw : 0 ≤ timeWeight params blockFrom.nTime nTimeTx := by
    simp only [timeWeight]
    omega
  rw [checkStakeKernelHash_eq params ctx hage hout hmin (coinDayWeight_of_range hv hw hr) hmod,
    arith256Mul_of_lt hprod]

/-- **More coins never hurt where nothing overflows.** A kernel accepted for a staked output is
accepted, with the same hash, when the output at that place is worth more, as long as its value
times the time weight fits `int64_t` and its weight times the target stays below `2 ^ 256`. -/
theorem checkStakeKernelHash_mono_value (hmaxAge : params.nStakeMinAge ≤ params.nStakeMaxAge)
    {nBits nTimeTx : Nat} {prev : CBlockIndex} {pprev : List CBlockIndex}
    {blockFrom : CBlockHeader} {txPrev txPrev' : CTransaction} {prevout : COutPoint}
    {txout txout' : CTxOut} {hashProofOfStake : Nat} (hout : txPrev.vout[prevout.n]? = some txout)
    (hout' : txPrev'.vout[prevout.n]? = some txout') (hv : 0 ≤ txout.nValue)
    (hle : txout.nValue ≤ txout'.nValue)
    (hr' : txout'.nValue * timeWeight params blockFrom.nTime nTimeTx ≤ INT64_MAX)
    (hprod' : (txout'.nValue * timeWeight params blockFrom.nTime nTimeTx / COIN / 200).toNat *
      setCompact nBits < 2 ^ 256)
    (h : checkStakeKernelHash params ctx nBits (prev :: pprev) blockFrom txPrev prevout nTimeTx =
      .ok hashProofOfStake) :
    checkStakeKernelHash params ctx nBits (prev :: pprev) blockFrom txPrev' prevout nTimeTx =
      .ok hashProofOfStake := by
  obtain ⟨hage, txout0, w, nStakeModifier, nHeight, nTime, hout0, hmin, hw, hmod, rfl, hhash⟩ :=
    checkStakeKernelHash_eq_ok params ctx h
  obtain rfl : txout0 = txout := Option.some.inj (hout0.symm.trans hout)
  have htw : 0 ≤ timeWeight params blockFrom.nTime nTimeTx := by
    simp only [timeWeight]
    omega
  have hmul := Int.mul_le_mul_of_nonneg_right hle htw
  rw [coinDayWeight_of_range hv htw (hmul.trans hr')] at hw
  obtain rfl := Except.ok.inj hw
  -- the weight grows with the value, and both products stay below `2 ^ 256`
  have hwle := Nat.mul_le_mul_right (setCompact nBits) (Int.toNat_le_toNat
    (Int.ediv_le_ediv (by decide : (0 : Int) < 200)
      (Int.ediv_le_ediv (by decide : (0 : Int) < COIN) hmul)))
  rw [arith256Mul_of_lt (hwle.trans_lt hprod')] at hhash
  rw [checkStakeKernelHash_eq params ctx hage hout' (fun hm => hmin ⟨hle.trans_lt hm.1, hm.2⟩)
    (coinDayWeight_of_range (hv.trans hle) htw hr') hmod, arith256Mul_of_lt hprod']
  exact if_pos (hhash.trans hwle)

end Kernel

/-! ## Where the products leave their ranges -/

/-- A kernel context over `kernelIndex` with the active chain up to `kernelC`, and the largest
kernel hash. -/
def maxHashContext : KernelContext where
  mapBlockIndex := kernelIndex
  chainActive := ⟨[kernelC, kernelB, kernelA, kernelGenesis]⟩
  nAdjustedTime := 0
  hashKernel := fun _ _ _ _ _ => 2 ^ 256 - 1
  hashKernel_lt := fun _ _ _ _ _ => Nat.sub_lt (Nat.two_pow_pos 256) Nat.one_pos

/-- A funding transaction with one output of `nValue`. -/
def stakeTx (nValue : Int) : CTransaction := ⟨1, .normal, [], [⟨nValue⟩], []⟩

/-! `100` coins at full weight against the target `0x1e0fffff`: nothing overflows, and the
kernel check is the unbounded comparison. -/

theorem checkStakeKernelHash_of_bounds_exampleHundred :
    kernelGenesis.nTime + mainParams.nStakeMinAge ≤ 90000 ∧
    mainParams.nStakeMinAge ≤ mainParams.nStakeMaxAge ∧
    (stakeTx (100 * COIN)).vout[0]? = some ⟨100 * COIN⟩ ∧
    ¬ ((100 * COIN : Int) < mainParams.nMinStakeAmount ∧
      mainParams.nStakeEnforcement < kernelC.nHeight + 1) ∧
    (0 : Int) ≤ 100 * COIN ∧
    100 * COIN * timeWeight mainParams kernelGenesis.nTime 90000 ≤ INT64_MAX ∧
    (100 * COIN * timeWeight mainParams kernelGenesis.nTime 90000 / COIN / 200).toNat *
      setCompact 0x1e0fffff < 2 ^ 256 ∧
    getKernelStakeModifierV03 mainParams maxHashContext.chainActive maxHashContext.mapBlockIndex
      [kernelC, kernelB, kernelA, kernelGenesis] kernelGenesis.hashBlock false
      maxHashContext.nAdjustedTime = .ok (42, 3, 3000) ∧
    checkStakeKernelHash mainParams maxHashContext 0x1e0fffff
        [kernelC, kernelB, kernelA, kernelGenesis] ⟨kernelGenesis.hashBlock, kernelGenesis.nTime⟩
        (stakeTx (100 * COIN)) ⟨9, 0⟩ 90000 =
      let hashProofOfStake := maxHashContext.hashKernel 42 kernelGenesis.nTime kernelGenesis.nTime
        0 90000
      if hashProofOfStake ≤ (100 * COIN * timeWeight mainParams kernelGenesis.nTime 90000 / COIN /
          200).toNat * setCompact 0x1e0fffff then .ok hashProofOfStake
      else .error (.reject "") :=
  ⟨by decide, by decide, rfl, by decide, by decide, by decide, by decide, by decide,
    checkStakeKernelHash_of_bounds mainParams maxHashContext (by decide) (by decide)
      (rfl : (stakeTx (100 * COIN)).vout[0]? = some ⟨100 * COIN⟩) (by decide) (by decide)
      (by decide) (by decide)
      (by decide : getKernelStakeModifierV03 mainParams maxHashContext.chainActive
        maxHashContext.mapBlockIndex [kernelC, kernelB, kernelA, kernelGenesis]
        kernelGenesis.hashBlock false maxHashContext.nAdjustedTime = .ok (42, 3, 3000))⟩

/-- `maxHashContext` with every kernel hash `0`. -/
def zeroHashKernelContext : KernelContext :=
  { maxHashContext with
    hashKernel := fun _ _ _ _ _ => 0
    hashKernel_lt := fun _ _ _ _ _ => Nat.two_pow_pos 256 }

/-! A kernel accepted for `100` coins is accepted for `200`. -/

theorem checkStakeKernelHash_mono_value_exampleDouble :
    checkStakeKernelHash mainParams zeroHashKernelContext 0x1e0fffff
        [kernelC, kernelB, kernelA, kernelGenesis] ⟨kernelGenesis.hashBlock, kernelGenesis.nTime⟩
        (stakeTx (100 * COIN)) ⟨9, 0⟩ 90000 = .ok 0 ∧
    checkStakeKernelHash mainParams zeroHashKernelContext 0x1e0fffff
        [kernelC, kernelB, kernelA, kernelGenesis] ⟨kernelGenesis.hashBlock, kernelGenesis.nTime⟩
        (stakeTx (200 * COIN)) ⟨9, 0⟩ 90000 = .ok 0 := by
  have h : checkStakeKernelHash mainParams zeroHashKernelContext 0x1e0fffff
      [kernelC, kernelB, kernelA, kernelGenesis] ⟨kernelGenesis.hashBlock, kernelGenesis.nTime⟩
      (stakeTx (100 * COIN)) ⟨9, 0⟩ 90000 = .ok 0 := by decide
  exact ⟨h, checkStakeKernelHash_mono_value mainParams zeroHashKernelContext (by decide)
    (rfl : (stakeTx (100 * COIN)).vout[0]? = some ⟨100 * COIN⟩)
    (rfl : (stakeTx (200 * COIN)).vout[0]? = some ⟨200 * COIN⟩) (by decide) (by decide)
    (by decide) (by decide) h⟩

/-- **The products leave their ranges on the main network.** With the coins staked in the
genesis block at time `0`, a kernel at time `90000` (full weight `82800`) and the compact target
`0x1e0fffff` (below `powLimit`):
* `10000` coins have coin-day weight `4140000`, whose product with the target exceeds `2 ^ 256`:
  the largest hash is rejected although it is below the unbounded product;
* `1113935` coins make `nValueIn * nTimeWeight` overflow `int64_t`. -/
theorem checkStakeKernelHash_wrapsTarget :
    setCompact 0x1e0fffff ≤ mainParams.powLimit ∧
    timeWeight mainParams 0 90000 = 82800 ∧
    coinDayWeight (10000 * COIN) 82800 = .ok 4140000 ∧
    2 ^ 256 ≤ 4140000 * setCompact 0x1e0fffff ∧
    checkStakeKernelHash mainParams maxHashContext 0x1e0fffff
        [kernelC, kernelB, kernelA, kernelGenesis] ⟨kernelGenesis.hashBlock, 0⟩
        (stakeTx (10000 * COIN)) ⟨9, 0⟩ 90000 = .error (.reject "") ∧
    checkStakeKernelHash mainParams maxHashContext 0x1e0fffff
        [kernelC, kernelB, kernelA, kernelGenesis] ⟨kernelGenesis.hashBlock, 0⟩
        (stakeTx (1113935 * COIN)) ⟨9, 0⟩ 90000 = .error (.undefined "signed overflow in *") := by
  decide

end Emrals
