import EmralsConsensus.Basic
import Mathlib.Data.List.Infix

/-!
# Block index entries and the active chain

The kernel walks `CBlockIndex` entries through their `pprev` links. A `const CBlockIndex*` is
modelled by the list of the entry and its ancestors, in the order `pprev` reaches them, down to
genesis; `nullptr` is `[]`. An entry never changes once its modifier fields are set, so a
pointer to an entry determines the whole chain below it, and "is an ancestor of" is `<:+`.

* `CBlockIndex`: the fields of an entry that kernel.cpp reads or writes; its hash is below
  `2 ^ 256`.
* `BlockMap` (`::BlockIndex()`): block hash to entry, grown by `insertEntry`; `Extends`: an index
  that only gains entries, as under an insertion with a fresh hash. `Indexed`: every
  entry of a chain is stored under its own hash; then equal hashes on a chain are one entry
  (`Indexed.eq_of_hashBlock`).
* `EveryEntry P`: `P` holds of every entry with its ancestors, that is of every suffix
  (`everyEntry_iff`). `HeightsOk`: `nHeight` counts the entry's ancestors.
* `CChain` (`ChainActive()`), given by its tip: `get` (`operator[]`), `contains`, `next`.
  On chains with consistent heights, `contains` is `<:+ tip` (`CChain.contains_iff`) and `next`
  is the entry one higher on the tip's chain (`CChain.next_of_suffix`).
-/

namespace Emrals

/-- The fields of a block index entry that kernel.cpp reads or writes: `GetBlockHash()`,
`GetBlockTime()`, the `nFlags` bits behind `IsProofOfStake()`, `GetStakeEntropyBit()` and
`GeneratedStakeModifier()`, and the stake-modifier fields. The block hash is a `uint256`. -/
structure CBlockIndex where
  nHeight : Nat
  nTime : Nat
  hashBlock : Nat
  isProofOfStake : Bool
  stakeEntropyBit : Bool
  generatedStakeModifier : Bool
  nStakeModifier : Nat
  hashProofOfStake : Nat
  nStakeModifierChecksum : Nat
  hashBlock_lt : hashBlock < 2 ^ 256
  deriving DecidableEq, Repr

/-- `::BlockIndex()`: the entry stored under a block hash. -/
abbrev BlockMap := Nat → Option (List CBlockIndex)

/-- `mapBlockIndex` with the entry `b :: pprev` stored under `b`'s hash. -/
def insertEntry (mapBlockIndex : BlockMap) (b : CBlockIndex) (pprev : List CBlockIndex) :
    BlockMap :=
  fun h => if h = b.hashBlock then some (b :: pprev) else mapBlockIndex h

@[simp] theorem insertEntry_self (mapBlockIndex : BlockMap) (b : CBlockIndex)
    (pprev : List CBlockIndex) : insertEntry mapBlockIndex b pprev b.hashBlock = some (b :: pprev) :=
  if_pos rfl

theorem insertEntry_of_ne (mapBlockIndex : BlockMap) {b : CBlockIndex} (pprev : List CBlockIndex)
    {h : Nat} (hne : h ≠ b.hashBlock) : insertEntry mapBlockIndex b pprev h = mapBlockIndex h :=
  if_neg hne

theorem insertEntry_eq_some {mapBlockIndex : BlockMap} {b : CBlockIndex} {pprev : List CBlockIndex}
    {h : Nat} {p : List CBlockIndex} :
    insertEntry mapBlockIndex b pprev h = some p ↔
      (h = b.hashBlock ∧ p = b :: pprev) ∨ (h ≠ b.hashBlock ∧ mapBlockIndex h = some p) := by
  unfold insertEntry
  by_cases hh : h = b.hashBlock <;> simp [hh, eq_comm]

/-- `mapBlockIndex'` stores every chain that `mapBlockIndex` stores, under the same hash. -/
def Extends (mapBlockIndex mapBlockIndex' : BlockMap) : Prop :=
  ∀ h p, mapBlockIndex h = some p → mapBlockIndex' h = some p

theorem insertEntry_extends {mapBlockIndex : BlockMap} {b : CBlockIndex}
    (hb : mapBlockIndex b.hashBlock = none) (pprev : List CBlockIndex) :
    Extends mapBlockIndex (insertEntry mapBlockIndex b pprev) := fun h p hp => by
  have hne : h ≠ b.hashBlock := by
    rintro rfl
    rw [hb] at hp
    cases hp
  rwa [insertEntry_of_ne _ _ hne]

/-- `P` holds of every entry of the chain, given with its ancestors. -/
def EveryEntry (P : CBlockIndex → List CBlockIndex → Prop) : List CBlockIndex → Prop
  | [] => True
  | b :: pprev => P b pprev ∧ EveryEntry P pprev

instance EveryEntry.decidable {P : CBlockIndex → List CBlockIndex → Prop}
    [h : ∀ b pprev, Decidable (P b pprev)] : ∀ p, Decidable (EveryEntry P p)
  | [] => isTrue trivial
  | b :: pprev => @instDecidableAnd _ _ (h b pprev) (EveryEntry.decidable pprev)

/-- Every entry of the chain at `pindex` is stored in `mapBlockIndex` under its own hash. -/
def Indexed (mapBlockIndex : BlockMap) : List CBlockIndex → Prop :=
  EveryEntry fun b pprev => mapBlockIndex b.hashBlock = some (b :: pprev)

/-- `nHeight` counts the ancestors of every entry of the chain. -/
def HeightsOk : List CBlockIndex → Prop := EveryEntry fun b pprev => b.nHeight = pprev.length

instance (mapBlockIndex : BlockMap) : DecidablePred (Indexed mapBlockIndex) :=
  EveryEntry.decidable

instance : DecidablePred HeightsOk := EveryEntry.decidable

section Chains

variable {mapBlockIndex : BlockMap} {P : CBlockIndex → List CBlockIndex → Prop}

theorem everyEntry_iff {p : List CBlockIndex} :
    EveryEntry P p ↔ ∀ b r, b :: r <:+ p → P b r := by
  induction p with
  | nil => simp [EveryEntry]
  | cons c p ih =>
    simp only [EveryEntry, ih, List.suffix_cons_iff, List.cons.injEq]
    constructor
    · rintro ⟨hc, hp⟩ b r (⟨rfl, rfl⟩ | hs)
      exacts [hc, hp b r hs]
    · intro h
      exact ⟨h c p (.inl ⟨rfl, rfl⟩), fun b r hs => h b r (.inr hs)⟩

theorem EveryEntry.of_suffix {p q : List CBlockIndex} (h : EveryEntry P q) (hpq : p <:+ q) :
    EveryEntry P p :=
  everyEntry_iff.mpr fun b r hs => everyEntry_iff.mp h b r (hs.trans hpq)

theorem Indexed.of_suffix {p q : List CBlockIndex} (h : Indexed mapBlockIndex q) (hpq : p <:+ q) :
    Indexed mapBlockIndex p := EveryEntry.of_suffix h hpq

theorem Indexed.lookup {p : List CBlockIndex} (h : Indexed mapBlockIndex p) {b : CBlockIndex}
    {r : List CBlockIndex} (hb : b :: r <:+ p) : mapBlockIndex b.hashBlock = some (b :: r) :=
  everyEntry_iff.mp h b r hb

theorem Indexed.of_extends {mapBlockIndex mapBlockIndex' : BlockMap} {p : List CBlockIndex}
    (h : Indexed mapBlockIndex p) (hext : Extends mapBlockIndex mapBlockIndex') :
    Indexed mapBlockIndex' p :=
  everyEntry_iff.mpr fun _ _ hs => hext _ _ (h.lookup hs)

theorem Indexed.eq_of_hashBlock {p : List CBlockIndex} (h : Indexed mapBlockIndex p)
    {b c : CBlockIndex} {r s : List CBlockIndex} (hb : b :: r <:+ p) (hc : c :: s <:+ p)
    (he : b.hashBlock = c.hashBlock) : b :: r = c :: s := by
  have h1 := h.lookup hb
  rw [he, h.lookup hc] at h1
  exact (Option.some.inj h1).symm

theorem Indexed.nodup_hashBlock {p : List CBlockIndex} (h : Indexed mapBlockIndex p) :
    (p.map CBlockIndex.hashBlock).Nodup := by
  induction p with
  | nil => exact List.nodup_nil
  | cons b p ih =>
    refine List.nodup_cons.mpr ⟨fun hb => ?_, ih (h.of_suffix (List.suffix_cons _ _))⟩
    obtain ⟨c, hc, he⟩ := List.mem_map.mp hb
    obtain ⟨s, t, rfl⟩ := List.mem_iff_append.mp hc
    have hct : c :: t <:+ b :: (s ++ c :: t) :=
      (List.suffix_append _ _).trans (List.suffix_cons _ _)
    have := congrArg List.length (h.eq_of_hashBlock (List.suffix_refl _) hct he.symm)
    simp at this
    omega

theorem HeightsOk.of_suffix {p q : List CBlockIndex} (h : HeightsOk q) (hpq : p <:+ q) :
    HeightsOk p := EveryEntry.of_suffix h hpq

theorem HeightsOk.nHeight {b : CBlockIndex} {p q : List CBlockIndex} (h : HeightsOk q)
    (hb : b :: p <:+ q) : b.nHeight = p.length :=
  everyEntry_iff.mp h b p hb

end Chains

/-! ## The active chain -/

/-- `ChainActive()`: `vChain` holds the entries of the chain ending at `tip`, by height. -/
structure CChain where
  tip : List CBlockIndex

namespace CChain

variable (chain : CChain)

/-- `operator[](nHeight)`: the entry at that height, `nullptr` above the tip. -/
def get (nHeight : Nat) : List CBlockIndex :=
  if nHeight < chain.tip.length then chain.tip.drop (chain.tip.length - 1 - nHeight) else []

/-- `Contains(pindex)`: `vChain[pindex->nHeight] == pindex` (called on non-null entries). -/
def contains : List CBlockIndex → Bool
  | [] => false
  | pindex@(b :: _) => chain.get b.nHeight == pindex

/-- `Next(pindex)`: the entry one higher when `pindex` is on the chain, else `nullptr`. -/
def next : List CBlockIndex → List CBlockIndex
  | [] => []
  | pindex@(b :: _) => if chain.contains pindex then chain.get (b.nHeight + 1) else []

variable {chain}

theorem get_suffix (nHeight : Nat) : chain.get nHeight <:+ chain.tip := by
  unfold get
  split
  · exact List.drop_suffix _ _
  · exact List.nil_suffix

theorem length_get {nHeight : Nat} (h : nHeight < chain.tip.length) :
    (chain.get nHeight).length = nHeight + 1 := by
  rw [get, if_pos h, List.length_drop]
  omega

theorem get_eq_nil {nHeight : Nat} (h : chain.tip.length ≤ nHeight) : chain.get nHeight = [] :=
  if_neg (by omega)

theorem get_of_suffix (ht : HeightsOk chain.tip) {b : CBlockIndex} {r : List CBlockIndex}
    (hs : b :: r <:+ chain.tip) : chain.get b.nHeight = b :: r := by
  have hl := hs.length_le
  simp only [List.length_cons] at hl
  rw [ht.nHeight hs, get, if_pos (by omega), List.suffix_iff_eq_drop.mp hs]
  simp only [List.length_cons]
  congr 1
  omega

theorem get_pred_length {k : Nat} (hk : 0 < k) (hk' : k ≤ chain.tip.length) :
    chain.get (k - 1) = chain.tip.drop (chain.tip.length - k) := by
  rw [get, if_pos (by omega)]
  congr 1
  omega

theorem contains_iff (ht : HeightsOk chain.tip) {b : CBlockIndex} {r : List CBlockIndex} :
    chain.contains (b :: r) = true ↔ b :: r <:+ chain.tip := by
  refine ⟨fun h => ?_, fun h => by simp [contains, get_of_suffix ht h]⟩
  simp only [contains, beq_iff_eq] at h
  exact h ▸ get_suffix _

theorem next_of_suffix (ht : HeightsOk chain.tip) {b : CBlockIndex} {r : List CBlockIndex}
    (hs : b :: r <:+ chain.tip) : chain.next (b :: r) = chain.get (r.length + 1) := by
  have hc : chain.contains (b :: r) = true := (contains_iff ht).mpr hs
  rw [next, if_pos hc, ht.nHeight hs]

theorem next_of_not_suffix (ht : HeightsOk chain.tip) {b : CBlockIndex} {r : List CBlockIndex}
    (hs : ¬ b :: r <:+ chain.tip) : chain.next (b :: r) = [] := by
  rw [next, if_neg (by rwa [contains_iff ht])]

end CChain

end Emrals
