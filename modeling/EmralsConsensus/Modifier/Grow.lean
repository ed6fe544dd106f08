import EmralsConsensus.Modifier.Compute

/-!
# Block indexes grown by the stake modifier engine

An entry's modifier fields are filled once, by `ComputeNextStakeModifier`, when the entry is
added below an entry already indexed (or as a genesis), and never change afterwards.

* `Grown`: the block indexes reachable from the empty one by such additions (`insertEntry`).
* `ModifierChain`: every entry's modifier is that of its nearest generated ancestor-or-self, which
  exists. `IntervalChain`: every generated non-genesis entry is in a later modifier interval than
  its nearest generated proper ancestor, and so is its parent.
* `chainInv_cons`: one addition keeps both, from `computeNextStakeModifier_eq_ok`;
  `grown_chainInv`: every entry of a grown index satisfies them.
* **`grown_getLastStakeModifier`** and **`grown_generatedIntervals`**: the two invariants read
  on every entry of every chain of a grown index.
* `exampleIndex`: a three-block grown index where a modifier is kept and one is generated.
-/

namespace Emrals

section Grow

variable (params : ConsensusParams) (selectionHash : Nat → Nat → Nat)

/-- The block indexes grown from the empty one: a new entry `b` with a fresh hash is added below
an indexed entry or as a genesis, with `(nStakeModifier, fGeneratedStakeModifier)` set to what
`ComputeNextStakeModifier` returns for it. -/
inductive Grown : BlockMap → Prop
  | empty : Grown fun _ => none
  | add {mapBlockIndex : BlockMap} {b : CBlockIndex} {pindexPrev : List CBlockIndex}
      {nStakeModifier : Nat} {fGenerated : Bool} :
      Grown mapBlockIndex →
      (pindexPrev = [] ∨ ∃ h, mapBlockIndex h = some pindexPrev) →
      mapBlockIndex b.hashBlock = none →
      computeNextStakeModifier params mapBlockIndex selectionHash (b :: pindexPrev) =
        .ok (nStakeModifier, fGenerated) →
      Grown (insertEntry mapBlockIndex
        { b with nStakeModifier := nStakeModifier, generatedStakeModifier := fGenerated }
        pindexPrev)

end Grow

/-! ## A grown index

A genesis, a child in a later modifier interval whose parent's interval is the genesis's, so
that it keeps the genesis modifier, and a grandchild that generates one by two selection rounds,
under `mainParams` and the selection hash `hashProof + nStakeModifierPrev`. -/

/-- A stand-in for `Hash(hashProof ‖ nStakeModifierPrev)`. -/
def exampleSelectionHash (hashProof nStakeModifierPrev : Nat) : Nat :=
  hashProof + nStakeModifierPrev

def exampleGenesis : CBlockIndex := ⟨0, 0, 1, false, true, true, 0, 0, 0, by decide⟩

def exampleChild : CBlockIndex := ⟨1, 120, 2, false, false, false, 0, 0, 0, by decide⟩

def exampleGrandchild : CBlockIndex := ⟨2, 180, 3, false, true, true, 1, 0, 1, by decide⟩

def exampleIndex : BlockMap :=
  insertEntry (insertEntry (insertEntry (fun _ => none) exampleGenesis []) exampleChild
    [exampleGenesis]) exampleGrandchild [exampleChild, exampleGenesis]

theorem grown_exampleIndex : Grown mainParams exampleSelectionHash exampleIndex :=
  .add (b := exampleGrandchild)
    (.add (b := exampleChild) (.add (b := exampleGenesis) .empty (.inl rfl) rfl (by decide))
      (.inr ⟨1, rfl⟩) rfl (by decide))
    (.inr ⟨2, rfl⟩) rfl (by decide)

section Grow

variable (params : ConsensusParams) (selectionHash : Nat → Nat → Nat)

/-- Every entry's modifier is its nearest generated ancestor-or-self's, which exists. -/
def ModifierChain : List CBlockIndex → Prop :=
  EveryEntry fun b pprev =>
    ∃ g, nearestGenerated (b :: pprev) = some g ∧ b.nStakeModifier = g.nStakeModifier

/-- Every generated non-genesis entry, and its parent, are in a later modifier interval than its
nearest generated proper ancestor. -/
def IntervalChain : List CBlockIndex → Prop :=
  EveryEntry fun b pprev =>
    b.generatedStakeModifier → pprev ≠ [] →
      ∃ g prev, pprev.head? = some prev ∧ nearestGenerated pprev = some g ∧
        g.nTime / params.nModifierInterval < b.nTime / params.nModifierInterval ∧
        g.nTime / params.nModifierInterval < prev.nTime / params.nModifierInterval

theorem chainInv_cons {mapBlockIndex : BlockMap} {b : CBlockIndex} {pindexPrev : List CBlockIndex}
    {m : Nat} {fGen : Bool}
    (h : computeNextStakeModifier params mapBlockIndex selectionHash (b :: pindexPrev) =
      .ok (m, fGen))
    (hm : ModifierChain pindexPrev) (hi : IntervalChain params pindexPrev) :
    ModifierChain ({ b with nStakeModifier := m, generatedStakeModifier := fGen } :: pindexPrev) ∧
    IntervalChain params
      ({ b with nStakeModifier := m, generatedStakeModifier := fGen } :: pindexPrev) := by
  rcases computeNextStakeModifier_eq_ok params mapBlockIndex selectionHash h with
    ⟨rfl, rfl, rfl⟩ | ⟨prev, g, hprev, hg, ⟨rfl, rfl, -⟩ | ⟨rfl, hlt, hlt'⟩⟩
  · exact ⟨⟨⟨_, rfl, rfl⟩, trivial⟩, ⟨fun _ h => absurd rfl h, trivial⟩⟩
  · refine ⟨⟨⟨g, ?_, rfl⟩, hm⟩, ⟨fun h => by simp at h, hi⟩⟩
    simpa [nearestGenerated_cons] using hg
  · refine ⟨⟨⟨_, by simp [nearestGenerated_cons], rfl⟩, hm⟩,
      ⟨fun _ _ => ⟨g, prev, hprev, hg, hlt', hlt⟩, hi⟩⟩

/-- **Every entry of a grown index satisfies both invariants.** -/
theorem grown_chainInv {mapBlockIndex : BlockMap} (hg : Grown params selectionHash mapBlockIndex) :
    ∀ h p, mapBlockIndex h = some p →
      p ≠ [] ∧ ModifierChain p ∧ IntervalChain params p := by
  induction hg with
  | empty => intro _ _ h; cases h
  | @add _ _ pindexPrev _ _ _ hprev _ hc ih =>
    intro h p hp
    simp only [insertEntry] at hp
    split_ifs at hp
    · cases hp
      have hpp : ModifierChain pindexPrev ∧ IntervalChain params pindexPrev := by
        rcases hprev with rfl | ⟨h', hh'⟩
        · exact ⟨trivial, trivial⟩
        · exact (ih h' _ hh').2
      exact ⟨List.cons_ne_nil _ _, chainInv_cons params selectionHash hc hpp.1 hpp.2⟩
    · exact ih h p hp

/-- **The modifier chain of a grown index.** On every entry `b` of every chain of a block index
grown by `ComputeNextStakeModifier`, `GetLastStakeModifier` succeeds (its "no generation at
genesis block" error is unreachable) and `b`'s stored `nStakeModifier` is that of its nearest
generated ancestor-or-self. -/
theorem grown_getLastStakeModifier {mapBlockIndex : BlockMap}
    (hg : Grown params selectionHash mapBlockIndex) {h : Nat} {p : List CBlockIndex}
    (hp : mapBlockIndex h = some p) {b : CBlockIndex} {pprev : List CBlockIndex}
    (hs : b :: pprev <:+ p) :
    ∃ g, nearestGenerated (b :: pprev) = some g ∧
      getLastStakeModifier (b :: pprev) = .ok (g.nStakeModifier, g.nTime) ∧
      b.nStakeModifier = g.nStakeModifier := by
  obtain ⟨g, hg', hm⟩ :=
    everyEntry_iff.mp (grown_chainInv params selectionHash hg h p hp).2.1 b pprev hs
  exact ⟨g, hg', by rw [getLastStakeModifier_cons, getLastStakeModifierFrom_eq, hg'], hm⟩

theorem grown_getLastStakeModifier_exampleChild :
    Grown mainParams exampleSelectionHash exampleIndex ∧
    exampleIndex 3 = some [exampleGrandchild, exampleChild, exampleGenesis] ∧
    [exampleChild, exampleGenesis] <:+ [exampleGrandchild, exampleChild, exampleGenesis] ∧
    ∃ g, nearestGenerated [exampleChild, exampleGenesis] = some g ∧
      getLastStakeModifier [exampleChild, exampleGenesis] = .ok (g.nStakeModifier, g.nTime) ∧
      exampleChild.nStakeModifier = g.nStakeModifier :=
  ⟨grown_exampleIndex, rfl, ⟨[exampleGrandchild], rfl⟩,
    grown_getLastStakeModifier mainParams exampleSelectionHash grown_exampleIndex
      (h := 3) rfl ⟨[exampleGrandchild], rfl⟩⟩

/-- **At most one new modifier per interval.** On every chain of a block index grown by
`ComputeNextStakeModifier`, a generated non-genesis entry `g2` and its parent are both in a
strictly later modifier interval than `g2`'s nearest generated proper ancestor `g1`. -/
theorem grown_generatedIntervals {mapBlockIndex : BlockMap}
    (hg : Grown params selectionHash mapBlockIndex) {h : Nat} {p : List CBlockIndex}
    (hp : mapBlockIndex h = some p) {g2 : CBlockIndex} {pprev : List CBlockIndex}
    (hs : g2 :: pprev <:+ p) (hgen : g2.generatedStakeModifier = true) (hne : pprev ≠ []) :
    ∃ g1 prev, pprev.head? = some prev ∧ nearestGenerated pprev = some g1 ∧
      g1.nTime / params.nModifierInterval < g2.nTime / params.nModifierInterval ∧
      g1.nTime / params.nModifierInterval < prev.nTime / params.nModifierInterval :=
  everyEntry_iff.mp (grown_chainInv params selectionHash hg h p hp).2.2 g2 pprev hs hgen hne

theorem grown_generatedIntervals_exampleGrandchild :
    Grown mainParams exampleSelectionHash exampleIndex ∧
    exampleIndex 3 = some [exampleGrandchild, exampleChild, exampleGenesis] ∧
    [exampleGrandchild, exampleChild, exampleGenesis] <:+
      [exampleGrandchild, exampleChild, exampleGenesis] ∧
    exampleGrandchild.generatedStakeModifier = true ∧ [exampleChild, exampleGenesis] ≠ [] ∧
    ∃ g1 prev, [exampleChild, exampleGenesis].head? = some prev ∧
      nearestGenerated [exampleChild, exampleGenesis] = some g1 ∧
      g1.nTime / mainParams.nModifierInterval <
        exampleGrandchild.nTime / mainParams.nModifierInterval ∧
      g1.nTime / mainParams.nModifierInterval < prev.nTime / mainParams.nModifierInterval :=
  ⟨grown_exampleIndex, rfl, List.suffix_refl _, rfl, List.cons_ne_nil _ _,
    grown_generatedIntervals mainParams exampleSelectionHash grown_exampleIndex
      (h := 3) rfl (List.suffix_refl _) rfl (List.cons_ne_nil _ _)⟩

end Grow

end Emrals
