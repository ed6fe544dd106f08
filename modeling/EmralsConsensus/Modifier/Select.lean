import EmralsConsensus.Index.Node
import EmralsConsensus.ChainParams
import Mathlib.Algebra.BigOperators.Group.List
import Mathlib.Algebra.Order.Ring.Nat

/-!
# The selection interval and `SelectBlockFromCandidates`

* `selectionIntervalSection`, `getStakeModifierSelectionIntervalSection` (with its `assert`),
  `getStakeModifierSelectionInterval`: the 64 sections of the selection interval.
* `selectBlockFromCandidates`: the candidate loop, with the `BlockIndex()` lookup by hash, the
  early `break` once a block is selected and the stop time is passed, the skip of selected
  blocks, and the strict `<` on selection hashes (proof-of-stake hashes shifted right by 32).
  SHA-256d is not modelled: `selectionHash hashProof nStakeModifierPrev` is the
  `arith_uint256` value of `Hash(hashProof ‖ nStakeModifierPrev)`.
* `selectLoop_ok`: when every candidate is found under its hash, the loop returns a block that
  is not yet selected and comes from the list, or keeps its previous choice; it selects one as
  soon as an unselected candidate exists (`selectBlockFromCandidates_ok`).
* `selectLoop_congr`: the loop reads of a candidate only its `stakeView` (everything but
  `nHeight` and `nStakeModifierChecksum`); two maps that agree on those give the same
  selection.
-/

namespace Emrals

/-- Modelled from the spec: `MODIFIER_INTERVAL_RATIO` (pos/kernel.h is not under src/),
"`RATIO = 3`". -/
def MODIFIER_INTERVAL_RATIO : Nat := 3

section Interval

variable (params : ConsensusParams)

/-- The width in seconds of section `nSection` of the selection interval. -/
def selectionIntervalSection (nSection : Nat) : Nat :=
  params.nModifierInterval * 63 / (63 + (63 - nSection) * ( MODIFIER_INTERVAL_RATIO - 1))

/-- `GetStakeModifierSelectionIntervalSection(nSection)`, with its `assert`. -/
def getStakeModifierSelectionIntervalSection (nSection : Nat) : Except Failure Nat :=
  if nSection < 64 then .ok (selectionIntervalSection params nSection)
  else .error (.assertFailed "nSection >= 0 && nSection < 64")

/-- `GetStakeModifierSelectionInterval()`: the sum of the 64 sections (each call within the loop
bound, so the `assert` holds). -/
def getStakeModifierSelectionInterval : Nat :=
  ((List.range 64).map (selectionIntervalSection params)).sum

theorem getStakeModifierSelectionIntervalSection_of_lt {nSection : Nat} (h : nSection < 64) :
    getStakeModifierSelectionIntervalSection params nSection =
      .ok (selectionIntervalSection params nSection) := if_pos h

theorem getStakeModifierSelectionInterval_pos : 0 < getStakeModifierSelectionInterval params := by
  have h63 : selectionIntervalSection params 63 = params.nModifierInterval := by
    simp [selectionIntervalSection]
  have := params.nModifierInterval_pos
  rw [getStakeModifierSelectionInterval, List.range_succ, List.map_append, List.sum_append]
  simp only [List.map_cons, List.map_nil, List.sum_cons, List.sum_nil, h63]
  omega

example : getStakeModifierSelectionInterval mainParams = 2087 := by decide

end Interval

/-! ## `SelectBlockFromCandidates` -/

/-- What the selection reads of an entry: every field but `nHeight` and
`nStakeModifierChecksum`. -/
def CBlockIndex.stakeView (b : CBlockIndex) : CBlockIndex :=
  { b with nHeight := 0, nStakeModifierChecksum := 0 }

theorem CBlockIndex.fields_of_stakeView {b c : CBlockIndex} (h : b.stakeView = c.stakeView) :
    b.nTime = c.nTime ∧ b.hashBlock = c.hashBlock ∧ b.isProofOfStake = c.isProofOfStake ∧
      b.stakeEntropyBit = c.stakeEntropyBit ∧ b.generatedStakeModifier = c.generatedStakeModifier ∧
      b.nStakeModifier = c.nStakeModifier ∧ b.hashProofOfStake = c.hashProofOfStake := by
  simp only [CBlockIndex.stakeView, CBlockIndex.mk.injEq] at h
  tauto

/-- The selection's projection of a choice `(hashBest, pindexSelected)`. -/
def viewBest (best : Option (Nat × CBlockIndex)) : Option (Nat × CBlockIndex) :=
  best.map fun x => (x.1, x.2.stakeView)

section Select

variable (mapBlockIndex : BlockMap) (selectionHash : Nat → Nat → Nat)
  (mapSelectedBlocks : List CBlockIndex) (nSelectionIntervalStop : Int) (nStakeModifierPrev : Nat)

/-- The selection hash of a candidate: `Hash(hashProof ‖ nStakeModifierPrev)`, divided by
`2 ^ 32` for a proof-of-stake block. -/
def hashSelectionOf (b : CBlockIndex) : Nat :=
  let hashProof := if b.isProofOfStake then b.hashProofOfStake else b.hashBlock
  let hashSelection := selectionHash hashProof nStakeModifierPrev
  if b.isProofOfStake then hashSelection >>> 32 else hashSelection

/-- The loop of `SelectBlockFromCandidates`; `best` is `(hashBest, *pindexSelected)` once
`fSelected`. -/
def selectLoop : List (Nat × Nat) → Option (Nat × CBlockIndex) →
    Except Failure (Option (Nat × CBlockIndex))
  | [], best => .ok best
  | item :: items, best =>
    match mapBlockIndex item.2 with
    | none => .error (.reject
        "SelectBlockFromCandidates: failed to find block index for candidate block")
    | some [] => .error (.undefined "null entry in BlockIndex()")
    | some (b :: _) =>
      if best.isSome && decide ((b.nTime : Int) > nSelectionIntervalStop) then .ok best
      else if b.hashBlock ∈ mapSelectedBlocks.map CBlockIndex.hashBlock then selectLoop items best
      else
        let hashSelection := hashSelectionOf selectionHash nStakeModifierPrev b
        match best with
        | some (hashBest, _) =>
          if hashSelection < hashBest then selectLoop items (some (hashSelection, b))
          else selectLoop items best
        | none => selectLoop items (some (hashSelection, b))

/-- `SelectBlockFromCandidates(vSortedByTimestamp, mapSelectedBlocks, nSelectionIntervalStop,
nStakeModifierPrev, &pindexSelected)`: the selected entry, or `false`. -/
def selectBlockFromCandidates (vSortedByTimestamp : List (Nat × Nat)) :
    Except Failure CBlockIndex :=
  match selectLoop mapBlockIndex selectionHash mapSelectedBlocks nSelectionIntervalStop
      nStakeModifierPrev vSortedByTimestamp none with
  | .ok (some (_, pindex)) => .ok pindex
  | .ok none => .error (.reject "")
  | .error e => .error e

theorem hashSelectionOf_congr {b c : CBlockIndex} (h : b.stakeView = c.stakeView) :
    hashSelectionOf selectionHash nStakeModifierPrev b =
      hashSelectionOf selectionHash nStakeModifierPrev c := by
  obtain ⟨-, hh, hp, -, -, -, hs⟩ := CBlockIndex.fields_of_stakeView h
  simp only [hashSelectionOf, hh, hp, hs]

/-- Every candidate is found under its hash, with its own hash and time. -/
def CandidatesFound (items : List (Nat × Nat)) : Prop :=
  ∀ item ∈ items, ∃ b r, mapBlockIndex item.2 = some (b :: r) ∧ b.hashBlock = item.2 ∧
    b.nTime = item.1

theorem selectLoop_induct (Q : Option (Nat × CBlockIndex) → Prop) {items : List (Nat × Nat)}
    {best res : Option (Nat × CBlockIndex)}
    (h : selectLoop mapBlockIndex selectionHash mapSelectedBlocks nSelectionIntervalStop
      nStakeModifierPrev items best = .ok res) (hbest : Q best)
    (hnew : ∀ item ∈ items, ∀ b r, mapBlockIndex item.2 = some (b :: r) →
      b.hashBlock ∉ mapSelectedBlocks.map CBlockIndex.hashBlock → ∀ hs, Q (some (hs, b))) :
    Q res := by
  induction items generalizing best with
  | nil => exact (Except.ok.inj h) ▸ hbest
  | cons item items ih =>
    have hnew' := fun i hi => hnew i (.tail _ hi)
    simp only [selectLoop] at h
    split at h
    · cases h
    · cases h
    · rename_i b r hb
      by_cases hbreak : (best.isSome && decide ((b.nTime : Int) > nSelectionIntervalStop)) = true
      · rw [if_pos hbreak] at h
        exact (Except.ok.inj h) ▸ hbest
      rw [if_neg hbreak] at h
      by_cases hsel : b.hashBlock ∈ mapSelectedBlocks.map CBlockIndex.hashBlock
      · rw [if_pos hsel] at h
        exact ih h hbest hnew'
      rw [if_neg hsel] at h
      have hQ := hnew item (.head _) b r hb hsel
      split at h
      · split at h
        · exact ih h (hQ _) hnew'
        · exact ih h hbest hnew'
      · exact ih h (hQ _) hnew'

theorem selectLoop_ok {items : List (Nat × Nat)} (hf : CandidatesFound mapBlockIndex items)
    (best : Option (Nat × CBlockIndex)) :
    ∃ res, selectLoop mapBlockIndex selectionHash mapSelectedBlocks nSelectionIntervalStop
      nStakeModifierPrev items best = .ok res := by
  induction items generalizing best with
  | nil => exact ⟨best, rfl⟩
  | cons item items ih =>
    have hf' : CandidatesFound mapBlockIndex items := fun i hi => hf i (.tail _ hi)
    obtain ⟨b, r, hb, -⟩ := hf item (.head _)
    simp only [selectLoop, hb]
    by_cases hbreak : (best.isSome && decide ((b.nTime : Int) > nSelectionIntervalStop)) = true
    · exact ⟨best, if_pos hbreak⟩
    rw [if_neg hbreak]
    split
    · exact ih hf' _
    · split
      · split <;> exact ih hf' _
      · exact ih hf' _

theorem selectLoop_isSome {items : List (Nat × Nat)} (hf : CandidatesFound mapBlockIndex items)
    (hex : ∃ item ∈ items, item.2 ∉ mapSelectedBlocks.map CBlockIndex.hashBlock)
    {res : Option (Nat × CBlockIndex)}
    (h : selectLoop mapBlockIndex selectionHash mapSelectedBlocks nSelectionIntervalStop
      nStakeModifierPrev items none = .ok res) : res.isSome := by
  induction items with
  | nil => obtain ⟨_, h, _⟩ := hex; cases h
  | cons item items ih =>
    have hf' : CandidatesFound mapBlockIndex items := fun i hi => hf i (.tail _ hi)
    obtain ⟨b, r, hb, hh, -⟩ := hf item (.head _)
    simp only [selectLoop, hb] at h
    by_cases hsel : b.hashBlock ∈ mapSelectedBlocks.map CBlockIndex.hashBlock
    · rw [if_neg (by simp), if_pos hsel] at h
      obtain ⟨i, hi, hn⟩ := hex
      rcases List.mem_cons.mp hi with rfl | hi
      · exact absurd (hh ▸ hsel) hn
      · exact ih hf' ⟨i, hi, hn⟩ h
    · rw [if_neg (by simp), if_neg hsel] at h
      exact selectLoop_induct mapBlockIndex selectionHash mapSelectedBlocks
        nSelectionIntervalStop nStakeModifierPrev (fun c => c.isSome = true) h rfl
        (fun _ _ _ _ _ _ _ => rfl)

theorem selectBlockFromCandidates_ok {items : List (Nat × Nat)}
    (hf : CandidatesFound mapBlockIndex items)
    (hex : ∃ item ∈ items, item.2 ∉ mapSelectedBlocks.map CBlockIndex.hashBlock) :
    ∃ b, selectBlockFromCandidates mapBlockIndex selectionHash mapSelectedBlocks
        nSelectionIntervalStop nStakeModifierPrev items = .ok b ∧
      b.hashBlock ∉ mapSelectedBlocks.map CBlockIndex.hashBlock ∧
      ∃ item ∈ items, ∃ r, mapBlockIndex item.2 = some (b :: r) := by
  obtain ⟨res, hres⟩ := selectLoop_ok mapBlockIndex selectionHash mapSelectedBlocks
    nSelectionIntervalStop nStakeModifierPrev hf none
  have hsome := selectLoop_isSome mapBlockIndex selectionHash mapSelectedBlocks
    nSelectionIntervalStop nStakeModifierPrev hf hex hres
  have hgood := selectLoop_induct mapBlockIndex selectionHash mapSelectedBlocks
    nSelectionIntervalStop nStakeModifierPrev
    (fun c => ∀ hs b, c = some (hs, b) → b.hashBlock ∉ mapSelectedBlocks.map CBlockIndex.hashBlock ∧
      ∃ item ∈ items, ∃ r, mapBlockIndex item.2 = some (b :: r)) hres
    (fun _ _ h => nomatch h)
    (fun item hi b r hb hn hs _ _ h => by cases h; exact ⟨hn, item, hi, r, hb⟩)
  obtain ⟨⟨hs, b⟩, rfl⟩ := Option.isSome_iff_exists.mp hsome
  exact ⟨b, by simp [selectBlockFromCandidates, hres], hgood hs b rfl⟩

/-- Two maps find, under each candidate's hash, entries with one view. -/
def CandidatesAgree (mapBlockIndex' : BlockMap) (items : List (Nat × Nat)) : Prop :=
  ∀ item ∈ items, ∃ b r b' r', mapBlockIndex item.2 = some (b :: r) ∧
    mapBlockIndex' item.2 = some (b' :: r') ∧ b.stakeView = b'.stakeView

theorem selectLoop_congr {mapBlockIndex' : BlockMap} {items : List (Nat × Nat)}
    (hagree : CandidatesAgree mapBlockIndex mapBlockIndex' items)
    {mapSelectedBlocks' : List CBlockIndex}
    (hsel : mapSelectedBlocks.map CBlockIndex.hashBlock =
      mapSelectedBlocks'.map CBlockIndex.hashBlock)
    {best best' : Option (Nat × CBlockIndex)} (hbest : viewBest best = viewBest best') :
    (selectLoop mapBlockIndex selectionHash mapSelectedBlocks nSelectionIntervalStop
        nStakeModifierPrev items best).map viewBest =
      (selectLoop mapBlockIndex' selectionHash mapSelectedBlocks' nSelectionIntervalStop
        nStakeModifierPrev items best').map viewBest := by
  induction items generalizing best best' with
  | nil => simp [selectLoop, Except.map, hbest]
  | cons item items ih =>
    have hagree' : CandidatesAgree mapBlockIndex mapBlockIndex' items :=
      fun i hi => hagree i (.tail _ hi)
    obtain ⟨b, r, b', r', hb, hb', hv⟩ := hagree item (.head _)
    obtain ⟨ht, hh, -⟩ := CBlockIndex.fields_of_stakeView hv
    have hsome : best.isSome = best'.isSome := by
      simpa [viewBest] using congrArg Option.isSome hbest
    simp only [selectLoop, hb, hb', ht, hh, hsel, hsome,
      hashSelectionOf_congr selectionHash nStakeModifierPrev hv]
    by_cases hbreak : (best'.isSome && decide ((b'.nTime : Int) > nSelectionIntervalStop)) = true
    · rw [if_pos hbreak, if_pos hbreak]
      simp [Except.map, hbest]
    rw [if_neg hbreak, if_neg hbreak]
    by_cases hs : b'.hashBlock ∈ mapSelectedBlocks'.map CBlockIndex.hashBlock
    · rw [if_pos hs, if_pos hs]
      exact ih hagree' hbest
    rw [if_neg hs, if_neg hs]
    rcases best with _ | ⟨x, e⟩ <;> rcases best' with _ | ⟨x', e'⟩ <;>
      simp only [viewBest, Option.map, Option.some.injEq, Prod.mk.injEq, reduceCtorEq] at hbest
    · exact ih hagree' (by simp [viewBest, hv])
    · obtain ⟨rfl, he⟩ := hbest
      dsimp only
      split_ifs
      · exact ih hagree' (by simp [viewBest, hv])
      · exact ih hagree' (by simp [viewBest, he])

theorem selectBlockFromCandidates_congr {mapBlockIndex' : BlockMap} {items : List (Nat × Nat)}
    (hagree : CandidatesAgree mapBlockIndex mapBlockIndex' items)
    {mapSelectedBlocks' : List CBlockIndex}
    (hsel : mapSelectedBlocks.map CBlockIndex.hashBlock =
      mapSelectedBlocks'.map CBlockIndex.hashBlock) :
    (selectBlockFromCandidates mapBlockIndex selectionHash mapSelectedBlocks nSelectionIntervalStop
        nStakeModifierPrev items).map CBlockIndex.stakeView =
      (selectBlockFromCandidates mapBlockIndex' selectionHash mapSelectedBlocks'
        nSelectionIntervalStop nStakeModifierPrev items).map CBlockIndex.stakeView := by
  have h : (selectLoop mapBlockIndex selectionHash mapSelectedBlocks nSelectionIntervalStop
      nStakeModifierPrev items none).map viewBest =
      (selectLoop mapBlockIndex' selectionHash mapSelectedBlocks' nSelectionIntervalStop
        nStakeModifierPrev items none).map viewBest :=
    selectLoop_congr mapBlockIndex selectionHash mapSelectedBlocks nSelectionIntervalStop
      nStakeModifierPrev hagree hsel rfl
  unfold selectBlockFromCandidates
  revert h
  rcases selectLoop mapBlockIndex selectionHash mapSelectedBlocks nSelectionIntervalStop
    nStakeModifierPrev items none with _ | _ | ⟨_, _⟩ <;>
  rcases selectLoop mapBlockIndex' selectionHash mapSelectedBlocks' nSelectionIntervalStop
    nStakeModifierPrev items none with _ | _ | ⟨_, _⟩ <;>
  simp [Except.map, viewBest]

end Select

end Emrals
