import EmralsConsensus.Modifier.Store

/-!
# The stake-modifier checksum and its checkpoints

Every entry carries a 32-bit checksum of its modifier fields, chained through its parent's; on
the main network the checksums at the heights of a hard-coded table must be the table's.

* `getStakeEntropyBit`: the parity of a block hash (`getStakeEntropyBit_eq`).
* `getStakeModifierChecksum`: the parent's checksum, the entry's flags, `hashProofOfStake` and
  `nStakeModifier`, hashed; SHA-256d of the stream is the parameter `hash`.
  `getStakeModifierChecksum_eq`: the value is the hash's high 32 bits.
* `checkStakeModifierCheckpoints` against `mapStakeModifierCheckpoints`.
* `ChecksumChain`: every entry stores the checksum computed for it and passes the checkpoints.
  **`checksumChain_congr`**: along such chains the checksums are a function of the entries'
  modifier data alone; **`grown_checksums_agree`**: on two grown indexes, chains with the same
  headers store the same checksums.
-/

namespace Emrals

/-- `GetStakeEntropyBit(block)`: `UintToArith256(block.GetHash()).GetLow64() & 1`. -/
def getStakeEntropyBit (hashBlock : Nat) : Nat := hashBlock % 2 ^ 64 &&& 1

theorem getStakeEntropyBit_eq (hashBlock : Nat) : getStakeEntropyBit hashBlock = hashBlock % 2 := by
  rw [getStakeEntropyBit, Nat.and_one_is_mod, Nat.mod_mod_of_dvd _ (by decide : 2 ∣ 2 ^ 64)]

/-- What `GetStakeModifierChecksum` streams into the hash: the parent's `nStakeModifierChecksum`
(nothing for the genesis), then the entry's `nFlags`, given by its three bits,
`hashProofOfStake` and `nStakeModifier`. -/
structure ChecksumData where
  prevChecksum : Option Nat
  nFlags : Bool × Bool × Bool
  hashProofOfStake : Nat
  nStakeModifier : Nat
  deriving DecidableEq, Repr

/-- An entry's own part of the checksum data. -/
def CBlockIndex.modifierData (b : CBlockIndex) : (Bool × Bool × Bool) × Nat × Nat :=
  ((b.isProofOfStake, b.stakeEntropyBit, b.generatedStakeModifier), b.hashProofOfStake,
    b.nStakeModifier)

/-- `mapStakeModifierCheckpoints`: height and checksum. -/
def mapStakeModifierCheckpoints : List (Nat × Nat) :=
  [(0, 0x0e00670b), (10000, 0x5cfbce9d), (20000, 0xc16b56d1), (40000, 0xb9778a75),
    (60000, 0x20607fd3), (80000, 0x5ea04d7d), (100000, 0x8c5032f4), (120000, 0x02f548e8),
    (140000, 0xa6ce0a3c), (160000, 0xfdb8036e), (180000, 0xa0987af6), (200000, 0x3ab8869c),
    (220000, 0x06de4abd), (240000, 0x835b2471), (260000, 0x9b40c935), (280000, 0xd07f22c6)]

/-- `CheckStakeModifierCheckpoints(nHeight, nStakeModifierChecksum)` on the network
`Params().NetworkIDString()`. -/
def checkStakeModifierCheckpoints (strNetworkID : String) (nHeight nStakeModifierChecksum : Nat) :
    Bool :=
  if strNetworkID ≠ "main" then true
  else match mapStakeModifierCheckpoints.lookup nHeight with
    | some c => nStakeModifierChecksum == c
    | none => true

section Checksum

variable (hashGenesisBlock : Nat) (hash : ChecksumData → Nat)

/-- `GetStakeModifierChecksum(pindex)`: after its `assert`, the hash of the stream as an
`arith_uint256`, shifted right by `256 - 32`, `GetLow64()`, returned as `unsigned int`. -/
def getStakeModifierChecksum : List CBlockIndex → Except Failure Nat
  | [] => .error (.undefined "null dereference of pindex")
  | b :: pprev =>
    if pprev = [] ∧ b.hashBlock ≠ hashGenesisBlock then
      .error (.assertFailed
        "pindex->pprev || pindex->GetBlockHash() == Params().GetConsensus().hashGenesisBlock")
    else
      let hashChecksum := hash ⟨pprev.head?.map CBlockIndex.nStakeModifierChecksum,
        (b.isProofOfStake, b.stakeEntropyBit, b.generatedStakeModifier), b.hashProofOfStake,
        b.nStakeModifier⟩ % 2 ^ 256
      .ok ((hashChecksum >>> (256 - 32)) % 2 ^ 64 % 2 ^ 32)

theorem getStakeModifierChecksum_eq {b : CBlockIndex} {pprev : List CBlockIndex}
    (h : pprev ≠ [] ∨ b.hashBlock = hashGenesisBlock) :
    getStakeModifierChecksum hashGenesisBlock hash (b :: pprev) =
      .ok (hash ⟨pprev.head?.map CBlockIndex.nStakeModifierChecksum,
        (b.isProofOfStake, b.stakeEntropyBit, b.generatedStakeModifier), b.hashProofOfStake,
        b.nStakeModifier⟩ % 2 ^ 256 / 2 ^ 224) := by
  have hlt : ∀ x : Nat, x % 2 ^ 256 / 2 ^ 224 < 2 ^ 32 := fun x =>
    Nat.div_lt_of_lt_mul (by rw [← Nat.pow_add]; exact Nat.mod_lt _ (Nat.two_pow_pos _))
  rw [getStakeModifierChecksum, if_neg fun hc => h.elim (· hc.1) hc.2]
  dsimp only
  rw [Nat.shiftRight_eq_div_pow, Nat.mod_eq_of_lt ((hlt _).trans (by decide)),
    Nat.mod_eq_of_lt (hlt _)]

theorem getStakeModifierChecksum_assert {b : CBlockIndex} {pprev : List CBlockIndex} {x : Nat}
    (h : getStakeModifierChecksum hashGenesisBlock hash (b :: pprev) = .ok x) :
    pprev ≠ [] ∨ b.hashBlock = hashGenesisBlock := by
  by_contra hc
  rw [not_or, not_not] at hc
  rw [getStakeModifierChecksum, if_pos hc] at h
  cases h

theorem getStakeModifierChecksum_congr {b c : CBlockIndex} {p q : List CBlockIndex}
    (hd : b.modifierData = c.modifierData)
    (hprev : p.head?.map CBlockIndex.nStakeModifierChecksum =
      q.head?.map CBlockIndex.nStakeModifierChecksum)
    (hb : p ≠ [] ∨ b.hashBlock = hashGenesisBlock) (hc : q ≠ [] ∨ c.hashBlock = hashGenesisBlock) :
    getStakeModifierChecksum hashGenesisBlock hash (b :: p) =
      getStakeModifierChecksum hashGenesisBlock hash (c :: q) := by
  obtain ⟨⟨h1, h2, h3⟩, h4, h5⟩ : _ ∧ _ := by
    simpa only [CBlockIndex.modifierData, Prod.mk.injEq] using hd
  rw [getStakeModifierChecksum_eq hashGenesisBlock hash hb,
    getStakeModifierChecksum_eq hashGenesisBlock hash hc, hprev, h1, h2, h3, h4, h5]

/-- Every entry stores the checksum computed for it and passes the checkpoints of
`strNetworkID`, as block acceptance requires of each new entry. -/
def ChecksumChain (strNetworkID : String) : List CBlockIndex → Prop :=
  EveryEntry fun b pprev =>
    getStakeModifierChecksum hashGenesisBlock hash (b :: pprev) = .ok b.nStakeModifierChecksum ∧
      checkStakeModifierCheckpoints strNetworkID b.nHeight b.nStakeModifierChecksum = true

instance (strNetworkID : String) :
    DecidablePred (ChecksumChain hashGenesisBlock hash strNetworkID) :=
  EveryEntry.decidable

theorem checksums_eq_of_modifierData {strNetworkID strNetworkID' : String} :
    ∀ {p q : List CBlockIndex}, ChecksumChain hashGenesisBlock hash strNetworkID p →
      ChecksumChain hashGenesisBlock hash strNetworkID' q →
      p.map CBlockIndex.modifierData = q.map CBlockIndex.modifierData →
      p.map CBlockIndex.nStakeModifierChecksum = q.map CBlockIndex.nStakeModifierChecksum
  | [], [], _, _, _ => rfl
  | b :: p, c :: q, ⟨⟨hb, _⟩, hp⟩, ⟨⟨hc, _⟩, hq⟩, hd => by
    simp only [List.map_cons, List.cons.injEq] at hd ⊢
    have hrest := checksums_eq_of_modifierData hp hq hd.2
    have hprev : p.head?.map CBlockIndex.nStakeModifierChecksum =
        q.head?.map CBlockIndex.nStakeModifierChecksum := by
      rw [← List.head?_map, hrest, List.head?_map]
    have h := getStakeModifierChecksum_congr hashGenesisBlock hash hd.1 hprev
      (getStakeModifierChecksum_assert hashGenesisBlock hash hb)
      (getStakeModifierChecksum_assert hashGenesisBlock hash hc)
    rw [hb, hc] at h
    exact ⟨Except.ok.inj h, hrest⟩
  | [], _ :: _, _, _, hd | _ :: _, [], _, _, hd => nomatch hd

/-- **The checksums commit to the modifier history.** On two chains whose entries store their
checksums, with the same modifier data entry by entry, every entry stores the same checksum:
a checksum is a function of the modifier data of its entry and all its ancestors. -/
theorem checksumChain_congr {strNetworkID strNetworkID' : String} {p q : List CBlockIndex}
    (hp : ChecksumChain hashGenesisBlock hash strNetworkID p)
    (hq : ChecksumChain hashGenesisBlock hash strNetworkID' q)
    (hd : p.map CBlockIndex.modifierData = q.map CBlockIndex.modifierData) :
    p.map CBlockIndex.nStakeModifierChecksum = q.map CBlockIndex.nStakeModifierChecksum :=
  checksums_eq_of_modifierData hashGenesisBlock hash hp hq hd

end Checksum

/-! ## Two checksum chains with one modifier history

A stand-in hash that puts the modifier in the high 32 bits, and two chains with the same modifier
data: one on the main network, whose genesis meets the height-`0` checkpoint, and one on the test
network with other heights, times and hashes. -/

/-- The modifier in the high 32 bits of the hash. -/
def exampleChecksumHash (d : ChecksumData) : Nat := d.nStakeModifier * 2 ^ 224

def checksumGenesis : CBlockIndex := ⟨0, 0, 1, false, true, true, 0x0e00670b, 0, 0x0e00670b, by decide⟩

def checksumChild : CBlockIndex := ⟨1, 60, 2, false, false, false, 0x0e00670b, 0, 0x0e00670b, by decide⟩

def checksumForkGenesis : CBlockIndex := ⟨5, 77, 1, false, true, true, 0x0e00670b, 0, 0x0e00670b, by decide⟩

def checksumForkChild : CBlockIndex := ⟨6, 99, 3, false, false, false, 0x0e00670b, 0, 0x0e00670b, by decide⟩

theorem checksumChain_congr_exampleNetworks :
    ChecksumChain 1 exampleChecksumHash "main" [checksumChild, checksumGenesis] ∧
    ChecksumChain 1 exampleChecksumHash "test" [checksumForkChild, checksumForkGenesis] ∧
    [checksumChild, checksumGenesis].map CBlockIndex.modifierData =
      [checksumForkChild, checksumForkGenesis].map CBlockIndex.modifierData ∧
    [checksumChild, checksumGenesis].map CBlockIndex.nStakeModifierChecksum =
      [checksumForkChild, checksumForkGenesis].map CBlockIndex.nStakeModifierChecksum :=
  ⟨by decide, by decide, rfl,
    checksumChain_congr 1 exampleChecksumHash
      (by decide : ChecksumChain 1 exampleChecksumHash "main" [checksumChild, checksumGenesis])
      (by decide : ChecksumChain 1 exampleChecksumHash "test" [checksumForkChild, checksumForkGenesis])
      rfl⟩

/-! ## The checksums of grown indexes -/

section Grown

variable (params : ConsensusParams) (selectionHash : Nat → Nat → Nat) (hashGenesisBlock : Nat)
  (hash : ChecksumData → Nat)

@[simp] theorem CBlockIndex.modifierData_stakeView (b : CBlockIndex) :
    b.stakeView.modifierData = b.modifierData := rfl

/-- **Nodes agree on the checksums.** On two block indexes grown by `ComputeNextStakeModifier`,
from any blocks added in any order, two stored chains with the same headers whose entries store
their checksums, on any networks, store the same checksums: the modifiers are a function of the
headers, and the checksums of the modifiers. -/
theorem grown_checksums_agree {mapBlockIndex mapBlockIndex' : BlockMap}
    (hg : Grown params selectionHash mapBlockIndex) (hg' : Grown params selectionHash mapBlockIndex')
    {h h' : Nat} {p p' : List CBlockIndex} (hp : mapBlockIndex h = some p)
    (hp' : mapBlockIndex' h' = some p')
    (hhdr : p.map CBlockIndex.headerView = p'.map CBlockIndex.headerView)
    {strNetworkID strNetworkID' : String} (hc : ChecksumChain hashGenesisBlock hash strNetworkID p)
    (hc' : ChecksumChain hashGenesisBlock hash strNetworkID' p') :
    p.map CBlockIndex.nStakeModifierChecksum = p'.map CBlockIndex.nStakeModifierChecksum := by
  have hv := grown_stakeView_eq params selectionHash hg hg'
    (grown_indexed params selectionHash hg h p hp) (grown_indexed params selectionHash hg' h' p' hp')
    hhdr
  refine checksums_eq_of_modifierData hashGenesisBlock hash hc hc' ?_
  simpa only [List.map_map, Function.comp_def, CBlockIndex.modifierData_stakeView] using
    congrArg (List.map CBlockIndex.modifierData) hv

end Grown

/-! The chain of `exampleIndex` on the test network and its copy in `exampleForkIndex`, with
other heights, on the regression-test network; the example hash puts the modifier in the
checksum. -/

theorem grown_checksums_agree_exampleFork :
    Grown mainParams exampleSelectionHash exampleIndex ∧
    Grown mainParams exampleSelectionHash exampleForkIndex ∧
    exampleIndex 3 = some [exampleGrandchild, exampleChild, exampleGenesis] ∧
    exampleForkIndex 3 =
      some [relabel exampleGrandchild, relabel exampleChild, relabel exampleGenesis] ∧
    [exampleGrandchild, exampleChild, exampleGenesis].map CBlockIndex.headerView =
      [relabel exampleGrandchild, relabel exampleChild, relabel exampleGenesis].map
        CBlockIndex.headerView ∧
    ChecksumChain 1 exampleChecksumHash "test" [exampleGrandchild, exampleChild, exampleGenesis] ∧
    ChecksumChain 1 exampleChecksumHash "regtest"
      [relabel exampleGrandchild, relabel exampleChild, relabel exampleGenesis] ∧
    [exampleGrandchild, exampleChild, exampleGenesis].map CBlockIndex.nStakeModifierChecksum =
      [relabel exampleGrandchild, relabel exampleChild, relabel exampleGenesis].map
        CBlockIndex.nStakeModifierChecksum :=
  have hc : ChecksumChain 1 exampleChecksumHash "test"
      [exampleGrandchild, exampleChild, exampleGenesis] := by decide
  have hc' : ChecksumChain 1 exampleChecksumHash "regtest"
      [relabel exampleGrandchild, relabel exampleChild, relabel exampleGenesis] := by decide
  ⟨grown_exampleIndex, grown_exampleForkIndex, rfl, rfl, by decide, hc, hc',
    grown_checksums_agree mainParams exampleSelectionHash 1 exampleChecksumHash grown_exampleIndex
      grown_exampleForkIndex (rfl : exampleIndex 3 = _) (rfl : exampleForkIndex 3 = _) (by decide)
      hc hc'⟩

end Emrals
