import EmralsConsensus.Modifier.Grow

/-!
# What `ComputeNextStakeModifier` reads

The new modifier is a function of the current block's time and of a window of the parent's chain:
from the parent down to the deeper of its nearest generated entry and its first entry below the
selection start (or down to genesis). `SelectBlockFromCandidates` finds candidates through the
global block index, not the chain, but on an indexed chain that finds the candidate itself.

* `modifierWindow`: the window's depth. `roundView`: a round's state up to the selected entries'
  `nHeight` and `nStakeModifierChecksum`, the fields the rounds never read.
* `getLastStakeModifierFrom_congr`, `collectCandidates_congr`: the walk to the nearest generated
  entry and the candidate loop see only the window's views; `candidatesAgree_of_collect`: on
  indexed chains, the sorted candidates then agree under the two indexes.
* `selectionRound_congr`, `selectionRounds_congr`: the rounds agree up to `roundView` under two
  indexes that agree on the candidates.
* **`computeNextStakeModifier_window`**: two blocks with one time, whose parents' chains agree on
  the window and are indexed, get the same result, whatever else differs.
-/

namespace Emrals

/-- How deep `ComputeNextStakeModifier` reads the parent's chain `pindexPrev`: the position of the
deeper of its nearest generated entry and its first entry below the selection start, each the
chain's length when there is none. -/
def modifierWindow (params : ConsensusParams) : List CBlockIndex → Nat
  | [] => 0
  | pindexPrev@(prev :: _) =>
    max (pindexPrev.findIdx CBlockIndex.generatedStakeModifier)
      (pindexPrev.findIdx fun b => decide ((b.nTime : Int) < selectionIntervalStart params prev))

/-- A round's state `(nStakeModifierNew, mapSelectedBlocks, nSelectionIntervalStop)` with the
selected entries' views. -/
def roundView (st : Nat × List CBlockIndex × Int) : Nat × List CBlockIndex × Int :=
  (st.1, st.2.1.map CBlockIndex.stakeView, st.2.2)

/-! ## The two walks down the parent's chain -/

section Walks

variable {p p' : List CBlockIndex}

theorem take_succ_stakeView {b b' : CBlockIndex} {n : Nat}
    (h : ((b :: p).map CBlockIndex.stakeView).take (n + 1) =
      ((b' :: p').map CBlockIndex.stakeView).take (n + 1)) :
    b.stakeView = b'.stakeView ∧
      (p.map CBlockIndex.stakeView).take n = (p'.map CBlockIndex.stakeView).take n := by
  simpa only [List.map_cons, List.take_succ_cons, List.cons.injEq] using h

theorem eq_nil_of_take_stakeView {n : Nat} (hn : 0 < n)
    (h : List.take n (List.map CBlockIndex.stakeView []) =
      (p'.map CBlockIndex.stakeView).take n) : p' = [] := by
  cases p' with
  | nil => rfl
  | cons b p' =>
    obtain ⟨n, rfl⟩ : ∃ m, n = m + 1 := ⟨n - 1, by omega⟩
    simp at h

theorem getLastStakeModifierFrom_congr {n : Nat}
    (hn : p.findIdx CBlockIndex.generatedStakeModifier < n)
    (h : (p.map CBlockIndex.stakeView).take n = (p'.map CBlockIndex.stakeView).take n) :
    getLastStakeModifierFrom p = getLastStakeModifierFrom p' := by
  induction p generalizing p' n with
  | nil => rw [eq_nil_of_take_stakeView hn h]
  | cons b p ih =>
    obtain ⟨n, rfl⟩ : ∃ m, n = m + 1 := ⟨n - 1, by omega⟩
    cases p' with
    | nil => simp at h
    | cons b' p' =>
      obtain ⟨hv, h⟩ := take_succ_stakeView h
      obtain ⟨ht, -, -, -, hg, hm, -⟩ := CBlockIndex.fields_of_stakeView hv
      rw [List.findIdx_cons] at hn
      simp only [getLastStakeModifierFrom, hg, hm, ht]
      split_ifs with hb
      · rfl
      · rw [hg, eq_false_of_ne_true hb, cond_false] at hn
        exact ih (Nat.lt_of_succ_lt_succ hn) h

theorem collectCandidates_congr {nSelectionIntervalStart : Int} {n : Nat}
    (hn : p.findIdx (fun b => decide ((b.nTime : Int) < nSelectionIntervalStart)) < n)
    (h : (p.map CBlockIndex.stakeView).take n = (p'.map CBlockIndex.stakeView).take n) :
    collectCandidates nSelectionIntervalStart p = collectCandidates nSelectionIntervalStart p' ∧
      ∀ item ∈ collectCandidates nSelectionIntervalStart p, ∃ b r b' r', b :: r <:+ p ∧
        b' :: r' <:+ p' ∧ item.2 = b.hashBlock ∧ b.stakeView = b'.stakeView := by
  induction p generalizing p' n with
  | nil => exact ⟨by rw [eq_nil_of_take_stakeView hn h], fun _ hi => nomatch hi⟩
  | cons b p ih =>
    obtain ⟨n, rfl⟩ : ∃ m, n = m + 1 := ⟨n - 1, by omega⟩
    cases p' with
    | nil => simp at h
    | cons b' p' =>
      obtain ⟨hv, h⟩ := take_succ_stakeView h
      obtain ⟨ht, hh, -⟩ := CBlockIndex.fields_of_stakeView hv
      rw [List.findIdx_cons] at hn
      simp only [collectCandidates, ht, hh]
      split_ifs with hb
      · have hlate : decide ((b.nTime : Int) < nSelectionIntervalStart) = false :=
          decide_eq_false (by rw [ht]; exact not_lt.mpr hb)
        rw [hlate, cond_false] at hn
        obtain ⟨heq, hmem⟩ := ih (Nat.lt_of_succ_lt_succ hn) h
        refine ⟨by rw [heq], fun item hi => ?_⟩
        rcases List.mem_cons.mp hi with rfl | hi
        · exact ⟨b, p, b', p', List.suffix_refl _, List.suffix_refl _, hh.symm, hv⟩
        · obtain ⟨c, r, c', r', hs, hs', he, hcv⟩ := hmem item hi
          exact ⟨c, r, c', r', hs.trans (List.suffix_cons _ _), hs'.trans (List.suffix_cons _ _),
            he, hcv⟩
      · exact ⟨rfl, fun _ hi => nomatch hi⟩

theorem candidatesAgree_of_collect {mapBlockIndex mapBlockIndex' : BlockMap}
    {nSelectionIntervalStart : Int} (hidx : Indexed mapBlockIndex p)
    (hidx' : Indexed mapBlockIndex' p')
    (hcoll : collectCandidates nSelectionIntervalStart p =
      collectCandidates nSelectionIntervalStart p')
    (hmem : ∀ item ∈ collectCandidates nSelectionIntervalStart p, ∃ b r b' r', b :: r <:+ p ∧
      b' :: r' <:+ p' ∧ item.2 = b.hashBlock ∧ b.stakeView = b'.stakeView) :
    CandidatesAgree mapBlockIndex mapBlockIndex'
      (sortCandidates (collectCandidates nSelectionIntervalStart p')) := by
  intro item hi
  obtain ⟨b, s, b', s', hs, hs', hh, hbv⟩ :=
    hmem item (hcoll ▸ (sortCandidates_perm _).subset hi)
  refine ⟨b, s, b', s', hh ▸ hidx.lookup hs, ?_, hbv⟩
  rw [hh, (CBlockIndex.fields_of_stakeView hbv).2.1]
  exact hidx'.lookup hs'

end Walks

/-! ## The rounds under two indexes -/

section Rounds

variable (params : ConsensusParams) (selectionHash : Nat → Nat → Nat) (nStakeModifierPrev : Nat)
  {mapBlockIndex mapBlockIndex' : BlockMap} {vSortedByTimestamp : List (Nat × Nat)}

theorem selectionRound_congr
    (hagree : CandidatesAgree mapBlockIndex mapBlockIndex' vSortedByTimestamp)
    {st st' : Nat × List CBlockIndex × Int} (h : roundView st = roundView st') (nRound : Nat) :
    (selectionRound params mapBlockIndex selectionHash vSortedByTimestamp nStakeModifierPrev st
        nRound).map roundView =
      (selectionRound params mapBlockIndex' selectionHash vSortedByTimestamp nStakeModifierPrev st'
        nRound).map roundView := by
  obtain ⟨h1, h2, h3⟩ : st.1 = st'.1 ∧ st.2.1.map CBlockIndex.stakeView =
      st'.2.1.map CBlockIndex.stakeView ∧ st.2.2 = st'.2.2 := by
    simpa [roundView] using h
  have hsel : st.2.1.map CBlockIndex.hashBlock = st'.2.1.map CBlockIndex.hashBlock := by
    simpa [Function.comp_def, CBlockIndex.stakeView] using
      congrArg (List.map CBlockIndex.hashBlock) h2
  unfold selectionRound
  rcases getStakeModifierSelectionIntervalSection params nRound with e | sec
  · rfl
  · simp only [ok_bind]
    have hb := selectBlockFromCandidates_congr mapBlockIndex selectionHash st.2.1
      (st.2.2 + sec) nStakeModifierPrev hagree hsel
    rw [← h3]
    revert hb
    rcases selectBlockFromCandidates mapBlockIndex selectionHash st.2.1 (st.2.2 + sec)
      nStakeModifierPrev vSortedByTimestamp with e | b <;>
    rcases selectBlockFromCandidates mapBlockIndex' selectionHash st'.2.1 (st.2.2 + sec)
      nStakeModifierPrev vSortedByTimestamp with e' | b' <;> intro hb
    · cases hb
      cases e <;> rfl
    · cases hb
    · cases hb
    · have hv := Except.ok.inj hb
      simp [roundView, Except.map, h1, h2, (CBlockIndex.fields_of_stakeView hv).2.2.2.1, hv]

theorem selectionRounds_congr
    (hagree : CandidatesAgree mapBlockIndex mapBlockIndex' vSortedByTimestamp)
    (nRounds : Nat) (nSelectionIntervalStart : Int) :
    (selectionRounds params mapBlockIndex selectionHash vSortedByTimestamp nStakeModifierPrev
        nRounds nSelectionIntervalStart).map roundView =
      (selectionRounds params mapBlockIndex' selectionHash vSortedByTimestamp nStakeModifierPrev
        nRounds nSelectionIntervalStart).map roundView :=
  foldlM_map_congr roundView
    (fun _ _ k h => selectionRound_congr params selectionHash nStakeModifierPrev hagree h k) _ _ _
    rfl

end Rounds

/-! ## The window -/

section Window

variable (params : ConsensusParams) (selectionHash : Nat → Nat → Nat)

/-- **`ComputeNextStakeModifier` reads only the window.** Two blocks `cur`, `cur'` with one time,
whose parents' chains are indexed (each in its own index) and agree on their views down to the
window of `cur`'s parent, get the same result: the same success or error, modifier and generated
flag. -/
theorem computeNextStakeModifier_window {mapBlockIndex mapBlockIndex' : BlockMap}
    {cur cur' : CBlockIndex} {pindexPrev pindexPrev' : List CBlockIndex}
    (hidx : Indexed mapBlockIndex pindexPrev) (hidx' : Indexed mapBlockIndex' pindexPrev')
    (htime : cur.nTime = cur'.nTime)
    (hwin : (pindexPrev.map CBlockIndex.stakeView).take (modifierWindow params pindexPrev + 1) =
      (pindexPrev'.map CBlockIndex.stakeView).take (modifierWindow params pindexPrev + 1)) :
    computeNextStakeModifier params mapBlockIndex selectionHash (cur :: pindexPrev) =
      computeNextStakeModifier params mapBlockIndex' selectionHash (cur' :: pindexPrev') := by
  rcases pindexPrev with _ | ⟨prev, r⟩
  · rw [eq_nil_of_take_stakeView (Nat.succ_pos _) hwin]
    rfl
  rcases pindexPrev' with _ | ⟨prev', r'⟩
  · simp only [List.map_cons, List.take_succ_cons, List.map_nil, List.take_nil,
      reduceCtorEq] at hwin
  have hv := (take_succ_stakeView hwin).1
  have hstart : selectionIntervalStart params prev = selectionIntervalStart params prev' := by
    simp only [selectionIntervalStart, (CBlockIndex.fields_of_stakeView hv).1]
  have hlast := getLastStakeModifierFrom_congr
    (Nat.lt_succ_of_le (le_max_left _ _)) hwin
  obtain ⟨hcoll, hmem⟩ := collectCandidates_congr (Nat.lt_succ_of_le (le_max_right _ _)) hwin
  rw [hstart] at hcoll hmem
  have hagree := candidatesAgree_of_collect hidx hidx' hcoll hmem
  simp only [computeNextStakeModifier, getLastStakeModifier_cons, hlast, htime, hstart, hcoll,
    (CBlockIndex.fields_of_stakeView hv).1]
  refine bind_congr fun x => ?_
  split
  · rfl
  split
  · rfl
  · exact bind_comp_congr roundView (selectionRounds_congr params selectionHash x.1 hagree _ _)
      fun st => .ok (st.1, true)

end Window

/-! ### Two forks that agree on the window

The parents' chains differ below the nearest generated entry, which is also the first entry below
the selection start, and the two blocks differ in everything but their time. -/

def windowRoot : CBlockIndex := ⟨0, 0, 10, false, true, true, 0, 0, 0, by decide⟩

def windowRoot' : CBlockIndex := ⟨0, 600, 11, false, false, true, 7, 0, 0, by decide⟩

def windowGenerated : CBlockIndex := ⟨1, 3000, 20, false, false, true, 5, 0, 0, by decide⟩

def windowPrev : CBlockIndex := ⟨2, 6000, 30, true, true, false, 5, 77, 0, by decide⟩

def windowCur : CBlockIndex := ⟨3, 6100, 40, true, true, false, 0, 88, 0, by decide⟩

def windowCur' : CBlockIndex := ⟨9, 6100, 41, false, false, false, 0, 0, 0, by decide⟩

/-- The chain `root, windowGenerated, windowPrev`, indexed. -/
def windowIndex (root : CBlockIndex) : BlockMap :=
  insertEntry (insertEntry (insertEntry (fun _ => none) root []) windowGenerated [root]) windowPrev
    [windowGenerated, root]

theorem computeNextStakeModifier_window_forks :
    Indexed (windowIndex windowRoot) [windowPrev, windowGenerated, windowRoot] ∧
    Indexed (windowIndex windowRoot') [windowPrev, windowGenerated, windowRoot'] ∧
    windowCur.nTime = windowCur'.nTime ∧
    ([windowPrev, windowGenerated, windowRoot].map CBlockIndex.stakeView).take
        (modifierWindow mainParams [windowPrev, windowGenerated, windowRoot] + 1) =
      ([windowPrev, windowGenerated, windowRoot'].map CBlockIndex.stakeView).take
        (modifierWindow mainParams [windowPrev, windowGenerated, windowRoot] + 1) ∧
    computeNextStakeModifier mainParams (windowIndex windowRoot) exampleSelectionHash
        [windowCur, windowPrev, windowGenerated, windowRoot] =
      computeNextStakeModifier mainParams (windowIndex windowRoot') exampleSelectionHash
        [windowCur', windowPrev, windowGenerated, windowRoot'] :=
  ⟨by decide, by decide, rfl, by decide,
    computeNextStakeModifier_window mainParams exampleSelectionHash (by decide) (by decide) rfl
      (by decide)⟩

example : computeNextStakeModifier mainParams (windowIndex windowRoot) exampleSelectionHash
    [windowCur, windowPrev, windowGenerated, windowRoot] = .ok (1, true) := by decide

end Emrals
