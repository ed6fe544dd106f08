import EmralsConsensus.Basic

/-!
# Consensus parameters (chainparams.cpp)

* `ConsensusParams`: the fields of `Consensus::Params` that the kernel reads. Every network sets
  `nModifierInterval = 60`; the structure carries that it is positive, as the divisions by it in
  kernel.cpp require.
* `mainParams`, `testNetParams`, `regTestParams`: the values of `CMainParams`, `CTestNetParams`
  and `CRegTestParams`. Regtest does not set `nStakeEnforcement` or `nMinStakeAmount`; they are
  arguments.
-/

namespace Emrals

/-- The fields of `Consensus::Params` read by the kernel (`StakeEnforcement()` and
`MinStakeAmount()` return `nStakeEnforcement` and `nMinStakeAmount`). -/
structure ConsensusParams where
  powLimit : Nat
  nStakeMinAge : Nat
  nStakeMaxAge : Nat
  nModifierInterval : Nat
  nStakeEnforcement : Nat
  nMinStakeAmount : Nat
  nModifierInterval_pos : 0 < nModifierInterval

/-- `CMainParams`. -/
def mainParams : ConsensusParams where
  powLimit := 0x00000fffffffffffffffffffffffffffffffffffffffffffffffffffffffffff
  nStakeMinAge := 60 * 60
  nStakeMaxAge := 60 * 60 * 24
  nModifierInterval := 60
  nStakeEnforcement := 7001
  nMinStakeAmount := 150 * 100000000
  nModifierInterval_pos := by decide

/-- `CTestNetParams`. -/
def testNetParams : ConsensusParams where
  powLimit := 0x00000ffff0000000000000000000000000000000000000000000000000000000
  nStakeMinAge := 60 * 1
  nStakeMaxAge := 60 * 60
  nModifierInterval := 60
  nStakeEnforcement := 200
  nMinStakeAmount := 1 * 100000000
  nModifierInterval_pos := by decide

/-- `CRegTestParams`, with the two fields its constructor leaves unset as arguments. -/
def regTestParams (nStakeEnforcement nMinStakeAmount : Nat) : ConsensusParams where
  powLimit := 0x7fffffffffffffffffffffffffffffffffffffffffffffffffffffffffffffff
  nStakeMinAge := 60 * 1
  nStakeMaxAge := 60 * 10
  nModifierInterval := 60
  nStakeEnforcement := nStakeEnforcement
  nMinStakeAmount := nMinStakeAmount
  nModifierInterval_pos := by decide

end Emrals
