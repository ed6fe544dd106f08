import EmralsConsensus.Modifier.Select
import Mathlib.Data.List.MinMax
import Mathlib.Data.List.Sort

/-!
# `SelectBlockFromCandidates` as an argmin

The loop of `SelectBlockFromCandidates` breaks once a block is chosen and the stop is passed,
skips the selected blocks and keeps a strict minimum. On candidates in time order it makes the
choice the spec states without a loop.

* `unselectedEntries`, `earlyEntries`: the entries of the candidates not yet selected, in list
  order, and those among them with time at most the stop.
* `selectionBySpec`: the first early entry of least selection hash (Mathlib's `List.argmin`, whose
  meaning `List.argmin_eq_some_iff` states), or the first unselected entry when none is early.
* `selectLoop_of_some`: from a choice `c`, the loop returns the argmin of `c` followed by the early
  entries; `selectLoop_eq_spec`: from no choice, it returns `selectionBySpec`.
* **`selectBlockFromCandidates_eq_argmin`**: when a candidate is unselected, the call succeeds with
  `selectionBySpec`'s choice.
-/

namespace Emrals

theorem argmin_cons_cons {α : Type} (f : α → Nat) (c b : α) (l : List α) :
    (c :: b :: l).argmin f = if f b < f c then (b :: l).argmin f else (c :: l).argmin f := by
  by_cases h : f b < f c <;> simp [List.argmin, List.argAux, h]

section Spec

variable (mapBlockIndex : BlockMap) (selectionHash : Nat → Nat → Nat)
  (mapSelectedBlocks : List CBlockIndex) (nSelectionIntervalStop : Int) (nStakeModifierPrev : Nat)

/-- The entries found under the candidates' hashes that are not yet selected, in list order. -/
def unselectedEntries (items : List (Nat × Nat)) : List CBlockIndex :=
  items.filterMap fun item => match mapBlockIndex item.2 with
    | some (b :: _) =>
      if b.hashBlock ∈ mapSelectedBlocks.map CBlockIndex.hashBlock then none else some b
    | _ => none

/-- The unselected entries with time at most the stop. -/
def earlyEntries (items : List (Nat × Nat)) : List CBlockIndex :=
  (unselectedEntries mapBlockIndex mapSelectedBlocks items).filter
    fun b => decide ((b.nTime : Int) ≤ nSelectionIntervalStop)

/-- The choice as the spec states it. When some unselected candidate has time at most the stop,
the first in list order of least selection hash among those (`hashSelectionOf`: the hash of the
proof hash and `nStakeModifierPrev`, shifted right by 32 for proof of stake); otherwise the first
unselected candidate. -/
def selectionBySpec (items : List (Nat × Nat)) : Option CBlockIndex :=
  match earlyEntries mapBlockIndex mapSelectedBlocks nSelectionIntervalStop items with
  | [] => (unselectedEntries mapBlockIndex mapSelectedBlocks items).head?
  | early => early.argmin (hashSelectionOf selectionHash nStakeModifierPrev)

/-- The loop's `(hashBest, *pindexSelected)` for a choice. -/
def bestOf (o : Option CBlockIndex) : Option (Nat × CBlockIndex) :=
  o.map fun b => (hashSelectionOf selectionHash nStakeModifierPrev b, b)

theorem unselectedEntries_cons {item : Nat × Nat} (items : List (Nat × Nat)) {b : CBlockIndex}
    {r : List CBlockIndex} (hb : mapBlockIndex item.2 = some (b :: r)) :
    unselectedEntries mapBlockIndex mapSelectedBlocks (item :: items) =
      if b.hashBlock ∈ mapSelectedBlocks.map CBlockIndex.hashBlock then
        unselectedEntries mapBlockIndex mapSelectedBlocks items
      else b :: unselectedEntries mapBlockIndex mapSelectedBlocks items := by
  simp only [unselectedEntries, List.filterMap_cons, hb]
  split_ifs <;> rfl

theorem earlyEntries_cons {item : Nat × Nat} (items : List (Nat × Nat)) {b : CBlockIndex}
    {r : List CBlockIndex} (hb : mapBlockIndex item.2 = some (b :: r)) :
    earlyEntries mapBlockIndex mapSelectedBlocks nSelectionIntervalStop (item :: items) =
      if b.hashBlock ∉ mapSelectedBlocks.map CBlockIndex.hashBlock ∧
          (b.nTime : Int) ≤ nSelectionIntervalStop then
        b :: earlyEntries mapBlockIndex mapSelectedBlocks nSelectionIntervalStop items
      else earlyEntries mapBlockIndex mapSelectedBlocks nSelectionIntervalStop items := by
  simp only [earlyEntries, unselectedEntries_cons mapBlockIndex mapSelectedBlocks items hb]
  by_cases hsel : b.hashBlock ∈ mapSelectedBlocks.map CBlockIndex.hashBlock
  · simp [hsel]
  · by_cases ht : (b.nTime : Int) ≤ nSelectionIntervalStop <;> simp [hsel, ht, List.filter_cons]

theorem earlyEntries_eq_nil {items : List (Nat × Nat)} (hf : CandidatesFound mapBlockIndex items)
    (hlate : ∀ item ∈ items, nSelectionIntervalStop < item.1) :
    earlyEntries mapBlockIndex mapSelectedBlocks nSelectionIntervalStop items = [] := by
  refine List.filter_eq_nil_iff.mpr fun x hx => ?_
  obtain ⟨item, hi, hx⟩ := List.mem_filterMap.mp hx
  obtain ⟨b, r, hb, -, ht⟩ := hf item hi
  simp only [hb] at hx
  split_ifs at hx
  cases hx
  have := hlate item hi
  simp only [decide_eq_true_eq, not_le]
  omega

theorem selectionBySpec_ne_none {items : List (Nat × Nat)}
    (hf : CandidatesFound mapBlockIndex items)
    (hex : ∃ item ∈ items, item.2 ∉ mapSelectedBlocks.map CBlockIndex.hashBlock) :
    selectionBySpec mapBlockIndex selectionHash mapSelectedBlocks nSelectionIntervalStop
      nStakeModifierPrev items ≠ none := by
  obtain ⟨item, hi, hn⟩ := hex
  obtain ⟨b, r, hb, hh, -⟩ := hf item hi
  have hu : b ∈ unselectedEntries mapBlockIndex mapSelectedBlocks items :=
    List.mem_filterMap.mpr ⟨item, hi, by simp only [hb, hh ▸ hn, if_false]⟩
  unfold selectionBySpec
  split
  · obtain ⟨c, l, hcl⟩ := List.exists_cons_of_ne_nil (List.ne_nil_of_mem hu)
    simp [hcl]
  · rename_i early hne
    exact fun h => hne (List.argmin_eq_none.mp h)

theorem selectLoop_of_some {items : List (Nat × Nat)}
    (hsorted : items.Sorted fun a b => a.1 ≤ b.1) (hf : CandidatesFound mapBlockIndex items)
    (c : CBlockIndex) :
    selectLoop mapBlockIndex selectionHash mapSelectedBlocks nSelectionIntervalStop
        nStakeModifierPrev items (bestOf selectionHash nStakeModifierPrev (some c)) =
      .ok (bestOf selectionHash nStakeModifierPrev
        ((c :: earlyEntries mapBlockIndex mapSelectedBlocks nSelectionIntervalStop items).argmin
          (hashSelectionOf selectionHash nStakeModifierPrev))) := by
  induction items generalizing c with
  | nil => rfl
  | cons item items ih =>
    obtain ⟨hle, hsorted⟩ := List.sorted_cons.mp hsorted
    have hf' : CandidatesFound mapBlockIndex items := fun i hi => hf i (.tail _ hi)
    obtain ⟨b, r, hb, -, ht⟩ := hf item (.head _)
    simp only [selectLoop, hb, bestOf, Option.map_some', Option.isSome_some, Bool.true_and]
    by_cases hbreak : nSelectionIntervalStop < b.nTime
    · rw [if_pos (decide_eq_true hbreak), earlyEntries_eq_nil mapBlockIndex mapSelectedBlocks
        nSelectionIntervalStop hf fun i hi => ?_, List.argmin_singleton]
      · rfl
      · rcases List.mem_cons.mp hi with rfl | hi
        · omega
        · have := hle i hi
          omega
    rw [if_neg (by simpa using hbreak),
      earlyEntries_cons mapBlockIndex mapSelectedBlocks nSelectionIntervalStop items hb]
    by_cases hsel : b.hashBlock ∈ mapSelectedBlocks.map CBlockIndex.hashBlock
    · rw [if_pos hsel, if_neg fun h => h.1 hsel]
      exact ih hsorted hf' c
    rw [if_neg hsel, if_pos (⟨hsel, not_lt.mp hbreak⟩ : _ ∧ _), argmin_cons_cons]
    split_ifs
    · exact ih hsorted hf' b
    · exact ih hsorted hf' c

theorem selectLoop_eq_spec {items : List (Nat × Nat)}
    (hsorted : items.Sorted fun a b => a.1 ≤ b.1) (hf : CandidatesFound mapBlockIndex items) :
    selectLoop mapBlockIndex selectionHash mapSelectedBlocks nSelectionIntervalStop
        nStakeModifierPrev items none =
      .ok (bestOf selectionHash nStakeModifierPrev (selectionBySpec mapBlockIndex selectionHash
        mapSelectedBlocks nSelectionIntervalStop nStakeModifierPrev items)) := by
  induction items with
  | nil => rfl
  | cons item items ih =>
    obtain ⟨hle, hsorted⟩ := List.sorted_cons.mp hsorted
    have hf' : CandidatesFound mapBlockIndex items := fun i hi => hf i (.tail _ hi)
    obtain ⟨b, r, hb, -, ht⟩ := hf item (.head _)
    simp only [selectLoop, hb, Option.isSome_none, Bool.false_and, Bool.false_eq_true, if_false]
    have hearly := earlyEntries_cons mapBlockIndex mapSelectedBlocks nSelectionIntervalStop items hb
    have hunsel := unselectedEntries_cons mapBlockIndex mapSelectedBlocks items hb
    by_cases hsel : b.hashBlock ∈ mapSelectedBlocks.map CBlockIndex.hashBlock
    · rw [if_pos hsel, ih hsorted hf']
      rw [if_neg fun h => h.1 hsel] at hearly
      rw [if_pos hsel] at hunsel
      simp only [selectionBySpec, hearly, hunsel]
    rw [if_neg hsel]
    refine (selectLoop_of_some mapBlockIndex selectionHash mapSelectedBlocks
      nSelectionIntervalStop nStakeModifierPrev hsorted hf' b).trans (congrArg _ (congrArg _ ?_))
    by_cases hstop : (b.nTime : Int) ≤ nSelectionIntervalStop
    · rw [if_pos ⟨hsel, hstop⟩] at hearly
      simp only [selectionBySpec, hearly]
    · -- past the stop, so is everything after `b`: the first unselected entry is chosen
      have hnil := earlyEntries_eq_nil mapBlockIndex mapSelectedBlocks nSelectionIntervalStop hf'
        fun i hi => by have := hle i hi; omega
      rw [if_neg fun h => hstop h.2, hnil] at hearly
      rw [if_neg hsel] at hunsel
      simp only [selectionBySpec, hearly, hunsel, hnil, List.head?_cons, List.argmin_singleton]

/-- **`SelectBlockFromCandidates` is the spec's argmin.** On candidates in time order (as a sort
by `(time, hash)` leaves them), each found under its hash with its own time, and with some
candidate not yet selected, the call succeeds for every stop and previous modifier. It returns,
when an unselected candidate has time at most the stop, the first in list order of least
selection hash among those, and otherwise the first unselected candidate. -/
theorem selectBlockFromCandidates_eq_argmin {items : List (Nat × Nat)}
    (hsorted : items.Sorted fun a b => a.1 ≤ b.1) (hf : CandidatesFound mapBlockIndex items)
    (hex : ∃ item ∈ items, item.2 ∉ mapSelectedBlocks.map CBlockIndex.hashBlock) :
    ∃ b, selectionBySpec mapBlockIndex selectionHash mapSelectedBlocks nSelectionIntervalStop
        nStakeModifierPrev items = some b ∧
      selectBlockFromCandidates mapBlockIndex selectionHash mapSelectedBlocks
        nSelectionIntervalStop nStakeModifierPrev items = .ok b := by
  obtain ⟨b, hb⟩ := Option.ne_none_iff_exists'.mp (selectionBySpec_ne_none mapBlockIndex
    selectionHash mapSelectedBlocks nSelectionIntervalStop nStakeModifierPrev hf hex)
  refine ⟨b, hb, ?_⟩
  rw [selectBlockFromCandidates, selectLoop_eq_spec mapBlockIndex selectionHash mapSelectedBlocks
    nSelectionIntervalStop nStakeModifierPrev hsorted hf, hb]
  rfl

end Spec

/-! ## A tie broken by list order

Three indexed candidates at times `100`, `200` and `300`, none selected, under the stand-in
selection hash `hashProof + nStakeModifierPrev` with `nStakeModifierPrev = 7`: the proof-of-work
`argminA` scores `11 + 7`, the proof-of-stake `argminB` and `argminC` both score
`(5 + 7) >>> 32 = 0`. With the stop at `300` all three are early, and of the tied two the earlier
is chosen. -/

def argminA : CBlockIndex := ⟨1, 100, 11, false, false, false, 0, 0, 0, by decide⟩

def argminB : CBlockIndex := ⟨2, 200, 12, true, true, false, 0, 5, 0, by decide⟩

def argminC : CBlockIndex := ⟨3, 300, 13, true, false, false, 0, 5, 0, by decide⟩

def argminIndex : BlockMap :=
  insertEntry (insertEntry (insertEntry (fun _ => none) argminA []) argminB [argminA]) argminC
    [argminB, argminA]

def argminItems : List (Nat × Nat) := [(100, 11), (200, 12), (300, 13)]

theorem candidatesFound_argminItems : CandidatesFound argminIndex argminItems := by
  intro item hi
  simp only [argminItems, List.mem_cons, List.mem_singleton, List.not_mem_nil, or_false] at hi
  rcases hi with rfl | rfl | rfl
  · exact ⟨argminA, [], rfl, rfl, rfl⟩
  · exact ⟨argminB, [argminA], rfl, rfl, rfl⟩
  · exact ⟨argminC, [argminB, argminA], rfl, rfl, rfl⟩

theorem selectBlockFromCandidates_eq_argmin_exampleTie :
    argminItems.Sorted (fun a b => a.1 ≤ b.1) ∧ CandidatesFound argminIndex argminItems ∧
    (∃ item ∈ argminItems, item.2 ∉ ([] : List CBlockIndex).map CBlockIndex.hashBlock) ∧
    ∃ b, selectionBySpec argminIndex Nat.add [] 300 7 argminItems = some b ∧
      selectBlockFromCandidates argminIndex Nat.add [] 300 7 argminItems = .ok b :=
  ⟨by decide, candidatesFound_argminItems, ⟨_, .head _, by decide⟩,
    selectBlockFromCandidates_eq_argmin argminIndex Nat.add [] 300 7 (by decide)
      candidatesFound_argminItems ⟨_, .head _, by decide⟩⟩

example : selectBlockFromCandidates argminIndex Nat.add [] 300 7 argminItems = .ok argminB := by
  decide

end Emrals
