import EmralsConsensus.Modifier.Select
import Mathlib.Data.List.Sort

/-!
# `ComputeNextStakeModifier`

* `getLastStakeModifier`: the `do … while` walk down `pprev` to the nearest entry carrying the
  generated flag; it is `nearestGenerated` read back (`getLastStakeModifierFrom_eq`).
* `collectCandidates`, `sortCandidates`: the candidate window from `pindexPrev` down to the
  selection start, reversed and sorted by time, then by the hash's `memcmp` order
  (`compareCandidates`). On hashes below `2 ^ 256` that is a total order, so every sorted
  rearrangement is `sortCandidates`' result (`eq_sortCandidates_of_sorted`);
  **`sortCandidates_unique`**: the candidates of an indexed chain are distinct ancestors with
  distinct hashes, and neither the `reverse`, the collection order nor the sort chosen changes
  the sorted list.
* `selectionRound`, `selectionRounds`: the `min(64, size)` rounds; round `nRound` widens the stop
  by its section, selects a block and ORs its entropy bit into bit `nRound`.
* `computeNextStakeModifier`: genesis gets `(0, generated)`; no new interval keeps `M_prev`;
  otherwise the rounds' accumulator, generated.
* **`computeNextStakeModifier_eq_ok`**: everything one successful call can return, the step lemma
  the chain invariants are derived from; `computeNextStakeModifier_of_selection`,
  `computeNextStakeModifier_of_keep`: the call on each of its two paths.
-/

namespace Emrals

/-- The nearest ancestor-or-self carrying the generated-stake-modifier flag. -/
def nearestGenerated (pindex : List CBlockIndex) : Option CBlockIndex :=
  pindex.find? CBlockIndex.generatedStakeModifier

/-- The `do … while` loop of `GetLastStakeModifier`. -/
def getLastStakeModifierFrom : List CBlockIndex → Except Failure (Nat × Nat)
  | [] => .error (.reject "GetLastStakeModifier: no generation at genesis block")
  | b :: pprev =>
    if b.generatedStakeModifier then .ok (b.nStakeModifier, b.nTime)
    else getLastStakeModifierFrom pprev

/-- `GetLastStakeModifier(pindex, nStakeModifier, nModifierTime)`. -/
def getLastStakeModifier : List CBlockIndex → Except Failure (Nat × Nat)
  | [] => .error (.reject "GetLastStakeModifier: null pindex")
  | pindex@(_ :: _) => getLastStakeModifierFrom pindex

@[simp] theorem nearestGenerated_nil : nearestGenerated [] = none := rfl

theorem nearestGenerated_cons (b : CBlockIndex) (p : List CBlockIndex) :
    nearestGenerated (b :: p) =
      if b.generatedStakeModifier then some b else nearestGenerated p := by
  by_cases h : b.generatedStakeModifier <;> simp [nearestGenerated, List.find?_cons, h]

theorem getLastStakeModifierFrom_eq (p : List CBlockIndex) :
    getLastStakeModifierFrom p = match nearestGenerated p with
      | some g => .ok (g.nStakeModifier, g.nTime)
      | none => .error (.reject "GetLastStakeModifier: no generation at genesis block") := by
  induction p with
  | nil => rfl
  | cons b p ih =>
    rw [getLastStakeModifierFrom, nearestGenerated_cons]
    split_ifs <;> simp [ih]

theorem getLastStakeModifier_cons (b : CBlockIndex) (p : List CBlockIndex) :
    getLastStakeModifier (b :: p) = getLastStakeModifierFrom (b :: p) := rfl

/-! ## Candidates and rounds -/

section Rounds

variable (params : ConsensusParams) (mapBlockIndex : BlockMap) (selectionHash : Nat → Nat → Nat)

/-- `nSelectionIntervalStart`: the start of `pindexPrev`'s modifier interval, less the selection
interval. -/
def selectionIntervalStart (prev : CBlockIndex) : Int :=
  ((prev.nTime / params.nModifierInterval * params.nModifierInterval : Nat) : Int) -
    getStakeModifierSelectionInterval params

/-- The candidate loop: `(GetBlockTime(), GetBlockHash())` of `pindexPrev` and its ancestors, while
the block time is at least `nSelectionIntervalStart`. -/
def collectCandidates (nSelectionIntervalStart : Int) : List CBlockIndex → List (Nat × Nat)
  | [] => []
  | b :: pprev =>
    if (b.nTime : Int) ≥ nSelectionIntervalStart then
      (b.nTime, b.hashBlock) :: collectCandidates nSelectionIntervalStart pprev
    else []

/-- `std::pair<int64_t, uint256>`'s comparison: by time, then by `base_blob::Compare`. -/
def compareCandidates (a b : Nat × Nat) : Ordering := (compare a.1 b.1).then (blobCompare a.2 b.2)

/-- The `≤` of a sort by that comparison. -/
def CandidateLE (a b : Nat × Nat) : Prop := compareCandidates a b ≠ .gt

instance : DecidableRel CandidateLE := fun a b =>
  inferInstanceAs (Decidable (compareCandidates a b ≠ .gt))

/-- `reverse` then `sort`. `std::sort` orders by the pairs' `<`; insertion sort is one correct
sort, and on pairwise-distinct pairs every correct sort gives the same list. -/
def sortCandidates (vSortedByTimestamp : List (Nat × Nat)) : List (Nat × Nat) :=
  vSortedByTimestamp.reverse.insertionSort CandidateLE

theorem sortCandidates_perm (vSortedByTimestamp : List (Nat × Nat)) :
    (sortCandidates vSortedByTimestamp).Perm vSortedByTimestamp :=
  (List.perm_insertionSort _ _).trans (List.reverse_perm _)

/-- A candidate as the string the comparison reads: its time, then its hash's bytes. -/
def candidateKey (a : Nat × Nat) : List Nat := a.1 :: leBytes 32 a.2

theorem candidateLE_iff {a b : Nat × Nat} :
    CandidateLE a b ↔ memcmp (candidateKey a) (candidateKey b) ≠ .gt := Iff.rfl

instance : IsTotal (Nat × Nat) CandidateLE := ⟨fun a b => by
  rw [candidateLE_iff, candidateLE_iff, memcmp_swap (candidateKey a)]
  cases memcmp (candidateKey a) (candidateKey b) <;> decide⟩

instance : IsTrans (Nat × Nat) CandidateLE := ⟨fun _ _ _ h1 h2 =>
  candidateLE_iff.mpr (memcmp_le_trans (candidateLE_iff.mp h1) (candidateLE_iff.mp h2))⟩

theorem candidateLE_antisymm {a b : Nat × Nat} (ha : a.2 < 2 ^ 256) (hb : b.2 < 2 ^ 256)
    (h : CandidateLE a b) (h' : CandidateLE b a) : a = b := by
  rw [candidateLE_iff] at h h'
  rw [memcmp_swap (candidateKey a)] at h'
  have he : memcmp (candidateKey a) (candidateKey b) = .eq := by
    revert h h'
    cases memcmp (candidateKey a) (candidateKey b) <;> decide
  obtain ⟨h1, h2⟩ := List.cons.inj (memcmp_eq_eq he)
  exact Prod.ext h1 (eq_of_leBytes_eq (by simpa using ha) (by simpa using hb) h2)

theorem sortCandidates_sorted (vSortedByTimestamp : List (Nat × Nat)) :
    (sortCandidates vSortedByTimestamp).Sorted CandidateLE :=
  List.sorted_insertionSort _ _

theorem eq_sortCandidates_of_sorted {v w : List (Nat × Nat)} (hv : ∀ x ∈ v, x.2 < 2 ^ 256)
    (hp : w.Perm v) (hs : w.Sorted CandidateLE) : w = sortCandidates v := by
  have : IsAntisymm {x : Nat × Nat // x.2 < 2 ^ 256} (fun a b => CandidateLE a.1 b.1) :=
    ⟨fun a b h h' => Subtype.ext (candidateLE_antisymm a.2 b.2 h h')⟩
  have hw : ∀ x ∈ w, x.2 < 2 ^ 256 := fun x hx => hv x (hp.subset hx)
  have hs' : ∀ x ∈ sortCandidates v, x.2 < 2 ^ 256 :=
    fun x hx => hv x ((sortCandidates_perm v).subset hx)
  -- compare the two lists as lists of bounded pairs, where the order is antisymmetric
  rw [← List.unattach_attachWith (H := hw), ← List.unattach_attachWith (H := hs')]
  exact congrArg List.unattach (List.eq_of_perm_of_sorted (r := fun a b => CandidateLE a.1 b.1)
    ((hp.trans (sortCandidates_perm v).symm).pmap Subtype.mk)
    ((List.pairwise_pmap hw).mpr (hs.imp fun h _ _ => h))
    ((List.pairwise_pmap hs').mpr ((sortCandidates_sorted v).imp fun h _ _ => h)))

theorem mem_collectCandidates {nSelectionIntervalStart : Int} {p : List CBlockIndex}
    {item : Nat × Nat} (h : item ∈ collectCandidates nSelectionIntervalStart p) :
    ∃ c s, c :: s <:+ p ∧ nSelectionIntervalStart ≤ c.nTime ∧ item = (c.nTime, c.hashBlock) := by
  induction p with
  | nil => cases h
  | cons b p ih =>
    rw [collectCandidates] at h
    split_ifs at h with hb
    · rcases List.mem_cons.mp h with rfl | h
      · exact ⟨b, p, List.suffix_refl _, hb, rfl⟩
      · obtain ⟨c, s, hs, ht, rfl⟩ := ih h
        exact ⟨c, s, hs.trans (List.suffix_cons _ _), ht, rfl⟩
    · cases h

theorem collectCandidates_hashes_sublist (nSelectionIntervalStart : Int) (p : List CBlockIndex) :
    ((collectCandidates nSelectionIntervalStart p).map Prod.snd).Sublist
      (p.map CBlockIndex.hashBlock) := by
  induction p with
  | nil => exact .slnil
  | cons b p ih =>
    rw [collectCandidates]
    split_ifs
    · exact ih.cons₂ _
    · exact List.nil_sublist _

theorem candidates_of_indexed {p : List CBlockIndex} (h : Indexed mapBlockIndex p)
    (nSelectionIntervalStart : Int) :
    CandidatesFound mapBlockIndex (sortCandidates (collectCandidates nSelectionIntervalStart p)) ∧
      ((sortCandidates (collectCandidates nSelectionIntervalStart p)).map Prod.snd).Nodup := by
  refine ⟨fun item hi => ?_, ?_⟩
  · obtain ⟨c, s, hs, -, rfl⟩ := mem_collectCandidates ((sortCandidates_perm _).subset hi)
    exact ⟨c, s, h.lookup hs, rfl, rfl⟩
  · exact ((sortCandidates_perm _).map _).nodup_iff.mpr
      (h.nodup_hashBlock.sublist (collectCandidates_hashes_sublist _ _))

theorem collectCandidates_eq_take (nSelectionIntervalStart : Int) :
    ∀ p : List CBlockIndex, ∃ k,
      collectCandidates nSelectionIntervalStart p = (p.take k).map fun c => (c.nTime, c.hashBlock)
  | [] => ⟨0, rfl⟩
  | b :: p => by
    obtain ⟨k, hk⟩ := collectCandidates_eq_take nSelectionIntervalStart p
    by_cases hb : (b.nTime : Int) ≥ nSelectionIntervalStart
    · exact ⟨k + 1, by rw [collectCandidates, if_pos hb, hk]; rfl⟩
    · exact ⟨0, by rw [collectCandidates, if_neg hb]; rfl⟩

/-- **One order, whatever the sort.** On an indexed chain the candidates are distinct ancestors,
the first entries of the chain, so their hashes are distinct. Sorting them after the `reverse`
gives what sorting them as collected gives; more, every ascending arrangement by `(time, hash)`
of any rearrangement of them, that is the output of any correct sort, stable or not, is
`sortCandidates`' result, timestamps shared or not. -/
theorem sortCandidates_unique {p : List CBlockIndex} (hidx : Indexed mapBlockIndex p)
    (nSelectionIntervalStart : Int) :
    let v := collectCandidates nSelectionIntervalStart p
    (∃ k, v = (p.take k).map fun c => (c.nTime, c.hashBlock)) ∧ (v.map Prod.snd).Nodup ∧
      sortCandidates v = v.insertionSort CandidateLE ∧
      (∀ w, w.Perm v → sortCandidates w = sortCandidates v) ∧
      ∀ w, w.Perm v → w.Sorted CandidateLE → w = sortCandidates v :=
  have hlt : ∀ x ∈ collectCandidates nSelectionIntervalStart p, x.2 < 2 ^ 256 := fun _ hx => by
    obtain ⟨c, -, -, -, rfl⟩ := mem_collectCandidates hx
    exact c.hashBlock_lt
  ⟨collectCandidates_eq_take _ p,
    hidx.nodup_hashBlock.sublist (collectCandidates_hashes_sublist _ _),
    (eq_sortCandidates_of_sorted hlt (List.perm_insertionSort _ _)
      (List.sorted_insertionSort _ _)).symm,
    fun w hw => eq_sortCandidates_of_sorted hlt ((sortCandidates_perm w).trans hw)
      (sortCandidates_sorted w),
    fun _ hw hs => eq_sortCandidates_of_sorted hlt hw hs⟩

/-! A genesis at time `0` with hash `9`, then two blocks at time `60` with hashes `256` and `4`:
collected from the top, the candidates are `(60, 4), (60, 256), (0, 9)`, and the shared time is
ordered by the hashes' bytes, least significant first: `256` (bytes `0, 1, …`) before `4`. -/

def sortGenesis : CBlockIndex := ⟨0, 0, 9, false, true, true, 0, 0, 0, by decide⟩

def sortChild : CBlockIndex := ⟨1, 60, 256, false, false, false, 0, 0, 0, by decide⟩

def sortGrandchild : CBlockIndex := ⟨2, 60, 4, false, false, false, 0, 0, 0, by decide⟩

def sortIndex : BlockMap :=
  insertEntry (insertEntry (insertEntry (fun _ => none) sortGenesis []) sortChild [sortGenesis])
    sortGrandchild [sortChild, sortGenesis]

theorem sortCandidates_unique_exampleTie :
    Indexed sortIndex [sortGrandchild, sortChild, sortGenesis] ∧
    let v := collectCandidates 0 [sortGrandchild, sortChild, sortGenesis]
    (∃ k, v = ([sortGrandchild, sortChild, sortGenesis].take k).map
        fun c => (c.nTime, c.hashBlock)) ∧ (v.map Prod.snd).Nodup ∧
      sortCandidates v = v.insertionSort CandidateLE ∧
      (∀ w, w.Perm v → sortCandidates w = sortCandidates v) ∧
      ∀ w, w.Perm v → w.Sorted CandidateLE → w = sortCandidates v :=
  ⟨by decide, sortCandidates_unique sortIndex (by decide) 0⟩

example : sortCandidates (collectCandidates 0 [sortGrandchild, sortChild, sortGenesis]) =
    [(0, 9), (60, 256), (60, 4)] := by
  decide

/-- One round: widen the stop by section `nRound`, select a block, OR its entropy bit into bit
`nRound` and record it (`mapSelectedBlocks` in insertion order; the selected hash is new). -/
def selectionRound (vSortedByTimestamp : List (Nat × Nat)) (nStakeModifierPrev : Nat)
    (st : Nat × List CBlockIndex × Int) (nRound : Nat) :
    Except Failure (Nat × List CBlockIndex × Int) := do
  let nSelectionIntervalStop :=
    st.2.2 + ((← getStakeModifierSelectionIntervalSection params nRound : Nat) : Int)
  let pindex ← rejectAs ("ComputeNextStakeModifier: unable to select block at round " ++
      toString nRound)
    (selectBlockFromCandidates mapBlockIndex selectionHash st.2.1 nSelectionIntervalStop
      nStakeModifierPrev vSortedByTimestamp)
  .ok (st.1 ||| (pindex.stakeEntropyBit.toNat <<< nRound), st.2.1 ++ [pindex],
    nSelectionIntervalStop)

/-- Rounds `0 … nRounds - 1`, from `nStakeModifierNew = 0`, no selected block and the stop at
the selection start. -/
def selectionRounds (vSortedByTimestamp : List (Nat × Nat)) (nStakeModifierPrev nRounds : Nat)
    (nSelectionIntervalStart : Int) : Except Failure (Nat × List CBlockIndex × Int) :=
  (List.range nRounds).foldlM (selectionRound params mapBlockIndex selectionHash vSortedByTimestamp
    nStakeModifierPrev) (0, [], nSelectionIntervalStart)

/-- `ComputeNextStakeModifier(pindexCurrent, nStakeModifier, fGeneratedStakeModifier)`:
`pindexCurrent` with its ancestors; the result is `(nStakeModifier, fGeneratedStakeModifier)`.
The `-debug` selection map only logs and is left out. -/
def computeNextStakeModifier : List CBlockIndex → Except Failure (Nat × Bool)
  | [] => .error (.undefined "null pindexCurrent")
  | [_] => .ok (0, true)
  | cur :: pindexPrev@(prev :: _) => do
    let (nStakeModifier, nModifierTime) ←
      rejectAs "ComputeNextStakeModifier: unable to get last modifier"
        (getLastStakeModifier pindexPrev)
    if nModifierTime / params.nModifierInterval ≥ prev.nTime / params.nModifierInterval then
      .ok (nStakeModifier, false)
    else if nModifierTime / params.nModifierInterval ≥ cur.nTime / params.nModifierInterval then
      .ok (nStakeModifier, false)
    else
      let nSelectionIntervalStart := selectionIntervalStart params prev
      let vSortedByTimestamp :=
        sortCandidates (collectCandidates nSelectionIntervalStart pindexPrev)
      let (nStakeModifierNew, _, _) ← selectionRounds params mapBlockIndex selectionHash
        vSortedByTimestamp nStakeModifier (min 64 vSortedByTimestamp.length) nSelectionIntervalStart
      .ok (nStakeModifierNew, true)

theorem computeNextStakeModifier_of_selection {cur prev g : CBlockIndex} {r : List CBlockIndex}
    (hg : nearestGenerated (prev :: r) = some g)
    (h1 : g.nTime / params.nModifierInterval < prev.nTime / params.nModifierInterval)
    (h2 : g.nTime / params.nModifierInterval < cur.nTime / params.nModifierInterval) :
    let v := sortCandidates (collectCandidates (selectionIntervalStart params prev) (prev :: r))
    computeNextStakeModifier params mapBlockIndex selectionHash (cur :: prev :: r) =
      selectionRounds params mapBlockIndex selectionHash v g.nStakeModifier (min 64 v.length)
        (selectionIntervalStart params prev) >>= fun st => .ok (st.1, true) := by
  simp only [computeNextStakeModifier, getLastStakeModifier_cons, getLastStakeModifierFrom_eq, hg,
    rejectAs, ok_bind, if_neg (not_le.mpr h1), if_neg (not_le.mpr h2)]

theorem computeNextStakeModifier_of_keep {cur prev g : CBlockIndex} {r : List CBlockIndex}
    (hg : nearestGenerated (prev :: r) = some g)
    (h : g.nTime / params.nModifierInterval ≥ prev.nTime / params.nModifierInterval ∨
      g.nTime / params.nModifierInterval ≥ cur.nTime / params.nModifierInterval) :
    computeNextStakeModifier params mapBlockIndex selectionHash (cur :: prev :: r) =
      .ok (g.nStakeModifier, false) := by
  simp only [computeNextStakeModifier, getLastStakeModifier_cons, getLastStakeModifierFrom_eq, hg,
    rejectAs, ok_bind]
  by_cases h1 : g.nTime / params.nModifierInterval ≥ prev.nTime / params.nModifierInterval
  · rw [if_pos h1]
  · rw [if_neg h1, if_pos (h.resolve_left h1)]

/-- **What one successful call returns.** Genesis gets `(0, generated)`. Otherwise the parent has
a nearest generated entry `g`; either an interval check fails and the result is `g`'s modifier,
not generated, or both pass and the result is generated. -/
theorem computeNextStakeModifier_eq_ok {cur : CBlockIndex} {pindexPrev : List CBlockIndex}
    {m : Nat} {fGen : Bool}
    (h : computeNextStakeModifier params mapBlockIndex selectionHash (cur :: pindexPrev) =
      .ok (m, fGen)) :
    (pindexPrev = [] ∧ m = 0 ∧ fGen = true) ∨
    ∃ prev g, pindexPrev.head? = some prev ∧ nearestGenerated pindexPrev = some g ∧
      ((fGen = false ∧ m = g.nStakeModifier ∧
          (g.nTime / params.nModifierInterval ≥ prev.nTime / params.nModifierInterval ∨
           g.nTime / params.nModifierInterval ≥ cur.nTime / params.nModifierInterval)) ∨
       (fGen = true ∧ g.nTime / params.nModifierInterval < prev.nTime / params.nModifierInterval ∧
          g.nTime / params.nModifierInterval < cur.nTime / params.nModifierInterval)) := by
  match pindexPrev, h with
  | [], h =>
    obtain ⟨rfl, rfl⟩ := Prod.mk.inj (Except.ok.inj h)
    exact .inl ⟨rfl, rfl, rfl⟩
  | prev :: r, h =>
    refine .inr ?_
    simp only [computeNextStakeModifier, bind_eq_ok] at h
    obtain ⟨⟨m0, t0⟩, hlast, h⟩ := h
    rw [rejectAs_eq_ok, getLastStakeModifier_cons, getLastStakeModifierFrom_eq] at hlast
    split at hlast
    · rename_i g hg
      obtain ⟨rfl, rfl⟩ := Prod.mk.inj (Except.ok.inj hlast)
      refine ⟨prev, g, rfl, hg, ?_⟩
      simp only at h
      split_ifs at h with h1 h2
      · obtain ⟨rfl, rfl⟩ := Prod.mk.inj (Except.ok.inj h)
        exact .inl ⟨rfl, rfl, .inl h1⟩
      · obtain ⟨rfl, rfl⟩ := Prod.mk.inj (Except.ok.inj h)
        exact .inl ⟨rfl, rfl, .inr h2⟩
      · obtain ⟨_, -, h⟩ := bind_eq_ok.mp h
        obtain ⟨-, rfl⟩ := Prod.mk.inj (Except.ok.inj h)
        exact .inr ⟨rfl, by omega, by omega⟩
    · cases hlast

end Rounds

end Emrals
