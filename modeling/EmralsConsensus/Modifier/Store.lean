import EmralsConsensus.Modifier.Rounds
import EmralsConsensus.Modifier.Window

/-!
# The grown block index: progress, replay and agreement

`Grown` adds entries one at a time, each with what `ComputeNextStakeModifier` returns for it
against the index as it was then. What that guarantees of every reachable index:

* `grown_indexed`: every stored chain is indexed; an addition under a fresh hash changes no
  stored chain (`insertEntry_extends`).
* `computeNextStakeModifier_congr`: the function reads of the parent's chain only its entries'
  views, and finds the candidates of an indexed chain whatever else the index holds.
* **`grown_computeNextStakeModifier_ok`**: for a block on a stored parent, or a genesis, the call
  always succeeds, so the index can always grow.
* **`grown_replay`**: every stored modifier and flag is what the call returns for its entry
  against the current index.
* **`grown_agree`**: two indexes grown from any blocks in any order store the same modifiers and
  flags on chains whose entries agree on everything else.
-/

namespace Emrals

/-- What a block carries besides its modifier fields, `nHeight` and its checksum. -/
def CBlockIndex.headerView (b : CBlockIndex) : CBlockIndex :=
  { b.stakeView with nStakeModifier := 0, generatedStakeModifier := false }

theorem CBlockIndex.stakeView_eq_of_headerView {b c : CBlockIndex}
    (h : b.headerView = c.headerView) (hm : b.nStakeModifier = c.nStakeModifier)
    (hg : b.generatedStakeModifier = c.generatedStakeModifier) : b.stakeView = c.stakeView := by
  simp only [CBlockIndex.headerView, CBlockIndex.stakeView, CBlockIndex.mk.injEq] at h ⊢
  tauto

section Store

variable (params : ConsensusParams) (selectionHash : Nat → Nat → Nat)

/-! ## One call -/

theorem computeNextStakeModifier_congr {mapBlockIndex mapBlockIndex' : BlockMap}
    {cur cur' : CBlockIndex} {p p' : List CBlockIndex}
    (hidx : Indexed mapBlockIndex p) (hidx' : Indexed mapBlockIndex' p')
    (htime : cur.nTime = cur'.nTime)
    (hv : p.map CBlockIndex.stakeView = p'.map CBlockIndex.stakeView) :
    computeNextStakeModifier params mapBlockIndex selectionHash (cur :: p) =
      computeNextStakeModifier params mapBlockIndex' selectionHash (cur' :: p') := by
  have hall : (p.map CBlockIndex.stakeView).take (p.length + 1) =
      (p'.map CBlockIndex.stakeView).take (p.length + 1) := by rw [hv]
  have hlen : ∀ f : CBlockIndex → Bool, p.findIdx f < p.length + 1 :=
    fun f => Nat.lt_succ_of_le (List.findIdx_le_length f)
  rcases p with _ | ⟨prev, r⟩
  · rw [eq_nil_of_take_stakeView (Nat.succ_pos _) hall]
    rfl
  rcases p' with _ | ⟨prev', r'⟩
  · cases hv
  have hprev := (take_succ_stakeView hall).1
  have hstart : selectionIntervalStart params prev = selectionIntervalStart params prev' := by
    simp only [selectionIntervalStart, (CBlockIndex.fields_of_stakeView hprev).1]
  obtain ⟨hcoll, hmem⟩ := collectCandidates_congr
    (hlen fun b => decide ((b.nTime : Int) < selectionIntervalStart params prev)) hall
  rw [hstart] at hcoll hmem
  simp only [computeNextStakeModifier, getLastStakeModifier_cons,
    getLastStakeModifierFrom_congr (hlen _) hall, htime, hstart, hcoll,
    (CBlockIndex.fields_of_stakeView hprev).1]
  refine bind_congr fun x => ?_
  split
  · rfl
  split
  · rfl
  · exact bind_comp_congr roundView (selectionRounds_congr params selectionHash x.1
      (candidatesAgree_of_collect hidx hidx' hcoll hmem) _ _) fun st => .ok (st.1, true)

theorem computeNextStakeModifier_ok {mapBlockIndex : BlockMap} {cur : CBlockIndex}
    {p : List CBlockIndex} (hidx : Indexed mapBlockIndex p) (hm : ModifierChain p) :
    ∃ m f, computeNextStakeModifier params mapBlockIndex selectionHash (cur :: p) = .ok (m, f) := by
  rcases p with _ | ⟨prev, r⟩
  · exact ⟨0, true, rfl⟩
  obtain ⟨⟨g, hg, -⟩, -⟩ := hm
  by_cases hkeep : g.nTime / params.nModifierInterval ≥ prev.nTime / params.nModifierInterval ∨
      g.nTime / params.nModifierInterval ≥ cur.nTime / params.nModifierInterval
  · exact ⟨_, _, computeNextStakeModifier_of_keep params mapBlockIndex selectionHash hg hkeep⟩
  obtain ⟨h1, h2⟩ := not_or.mp hkeep
  obtain ⟨hf, hv⟩ := candidates_of_indexed mapBlockIndex hidx (selectionIntervalStart params prev)
  obtain ⟨st, hrun, -⟩ := selectionRounds_inv params mapBlockIndex selectionHash g.nStakeModifier
    hf hv _ _ le_rfl
  refine ⟨st.1, true, ?_⟩
  rw [computeNextStakeModifier_of_selection params mapBlockIndex selectionHash hg
    (not_le.mp h1) (not_le.mp h2), hrun, ok_bind]

/-! ## Every reachable index -/

theorem Grown.indexed_parent {mapBlockIndex : BlockMap} {pindexPrev : List CBlockIndex}
    (hidx : ∀ h p, mapBlockIndex h = some p → Indexed mapBlockIndex p)
    (hprev : pindexPrev = [] ∨ ∃ h, mapBlockIndex h = some pindexPrev) :
    Indexed mapBlockIndex pindexPrev := by
  rcases hprev with rfl | ⟨h, hh⟩
  · trivial
  · exact hidx h _ hh

theorem grown_indexed {mapBlockIndex : BlockMap} (hg : Grown params selectionHash mapBlockIndex) :
    ∀ h p, mapBlockIndex h = some p → Indexed mapBlockIndex p := by
  induction hg with
  | empty => intro _ _ h; cases h
  | @add _ b pindexPrev m f _ hprev hb _ ih =>
    have hext := insertEntry_extends
      (b := { b with nStakeModifier := m, generatedStakeModifier := f }) hb pindexPrev
    intro h p hp
    rcases insertEntry_eq_some.mp hp with ⟨-, rfl⟩ | ⟨-, hp⟩
    · exact ⟨insertEntry_self _ _ _, (Grown.indexed_parent ih hprev).of_extends hext⟩
    · exact (ih h p hp).of_extends hext

theorem grown_replay_head {mapBlockIndex : BlockMap} (hg : Grown params selectionHash mapBlockIndex)
    {h : Nat} {b : CBlockIndex} {pprev : List CBlockIndex}
    (hp : mapBlockIndex h = some (b :: pprev)) :
    computeNextStakeModifier params mapBlockIndex selectionHash (b :: pprev) =
      .ok (b.nStakeModifier, b.generatedStakeModifier) := by
  induction hg generalizing h b pprev with
  | empty => cases hp
  | @add M b0 pindexPrev m f hg0 hprev hb hc ih =>
    have hext := insertEntry_extends
      (b := { b0 with nStakeModifier := m, generatedStakeModifier := f }) hb pindexPrev
    have hidx := grown_indexed params selectionHash hg0
    rcases insertEntry_eq_some.mp hp with ⟨-, hp⟩ | ⟨-, hp⟩
    · obtain ⟨rfl, rfl⟩ := List.cons.inj hp
      have hprev' := Grown.indexed_parent hidx hprev
      refine Eq.trans ?_ hc
      exact computeNextStakeModifier_congr params selectionHash (hprev'.of_extends hext) hprev' rfl rfl
    · have hpprev : Indexed M pprev := (hidx h _ hp).2
      refine Eq.trans ?_ (ih hp)
      exact computeNextStakeModifier_congr params selectionHash (hpprev.of_extends hext) hpprev rfl rfl

/-- **Stored modifiers are reproducible.** On every block index grown by
`ComputeNextStakeModifier`, calling it again for any entry of any stored chain, against the
current index, returns exactly the `nStakeModifier` and generated flag the entry stores: the
entries added since change nothing it reads. -/
theorem grown_replay {mapBlockIndex : BlockMap} (hg : Grown params selectionHash mapBlockIndex)
    {h : Nat} {p : List CBlockIndex} (hp : mapBlockIndex h = some p) {b : CBlockIndex}
    {pprev : List CBlockIndex} (hs : b :: pprev <:+ p) :
    computeNextStakeModifier params mapBlockIndex selectionHash (b :: pprev) =
      .ok (b.nStakeModifier, b.generatedStakeModifier) :=
  grown_replay_head params selectionHash hg ((grown_indexed params selectionHash hg h p hp).lookup hs)

theorem grown_replay_exampleChild :
    Grown mainParams exampleSelectionHash exampleIndex ∧
    exampleIndex 3 = some [exampleGrandchild, exampleChild, exampleGenesis] ∧
    [exampleChild, exampleGenesis] <:+ [exampleGrandchild, exampleChild, exampleGenesis] ∧
    computeNextStakeModifier mainParams exampleIndex exampleSelectionHash
        [exampleChild, exampleGenesis] =
      .ok (exampleChild.nStakeModifier, exampleChild.generatedStakeModifier) :=
  ⟨grown_exampleIndex, rfl, ⟨[exampleGrandchild], rfl⟩,
    grown_replay mainParams exampleSelectionHash grown_exampleIndex (h := 3) rfl
      ⟨[exampleGrandchild], rfl⟩⟩

/-- **The index can always grow.** On every block index grown by `ComputeNextStakeModifier`, the
call succeeds for any block on a stored parent, or as a genesis: neither of its errors ("unable
to get last modifier", "unable to select block at round"), nor a failed `assert`, nor undefined
behaviour is reachable. A block with a fresh hash is then added with the result. -/
theorem grown_computeNextStakeModifier_ok {mapBlockIndex : BlockMap}
    (hg : Grown params selectionHash mapBlockIndex) {b : CBlockIndex}
    {pindexPrev : List CBlockIndex} (hprev : pindexPrev = [] ∨ ∃ h, mapBlockIndex h = some pindexPrev)
    (hb : mapBlockIndex b.hashBlock = none) :
    ∃ nStakeModifier fGenerated,
      computeNextStakeModifier params mapBlockIndex selectionHash (b :: pindexPrev) =
        .ok (nStakeModifier, fGenerated) ∧
      Grown params selectionHash (insertEntry mapBlockIndex
        { b with nStakeModifier := nStakeModifier, generatedStakeModifier := fGenerated }
        pindexPrev) := by
  have hm : ModifierChain pindexPrev := by
    rcases hprev with rfl | ⟨h, hh⟩
    · trivial
    · exact (grown_chainInv params selectionHash hg h _ hh).2.1
  obtain ⟨m, f, hc⟩ : ∃ m f, computeNextStakeModifier params mapBlockIndex selectionHash
      (b :: pindexPrev) = .ok (m, f) := computeNextStakeModifier_ok params selectionHash
    (Grown.indexed_parent (grown_indexed params selectionHash hg) hprev) hm
  exact ⟨m, f, hc, .add hg hprev hb hc⟩

/-- A block above `exampleGrandchild`, in the same modifier interval. -/
def exampleNext : CBlockIndex := ⟨3, 200, 4, false, false, false, 0, 0, 0, by decide⟩

theorem grown_computeNextStakeModifier_ok_exampleNext :
    Grown mainParams exampleSelectionHash exampleIndex ∧
    ([exampleGrandchild, exampleChild, exampleGenesis] = [] ∨
      ∃ h, exampleIndex h = some [exampleGrandchild, exampleChild, exampleGenesis]) ∧
    exampleIndex exampleNext.hashBlock = none ∧
    ∃ nStakeModifier fGenerated,
      computeNextStakeModifier mainParams exampleIndex exampleSelectionHash
          [exampleNext, exampleGrandchild, exampleChild, exampleGenesis] =
        .ok (nStakeModifier, fGenerated) ∧
      Grown mainParams exampleSelectionHash (insertEntry exampleIndex
        { exampleNext with nStakeModifier := nStakeModifier, generatedStakeModifier := fGenerated }
        [exampleGrandchild, exampleChild, exampleGenesis]) :=
  ⟨grown_exampleIndex, .inr ⟨3, rfl⟩, rfl,
    grown_computeNextStakeModifier_ok mainParams exampleSelectionHash grown_exampleIndex
      (.inr ⟨3, rfl⟩) rfl⟩

theorem grown_stakeView_eq {mapBlockIndex mapBlockIndex' : BlockMap}
    (hg : Grown params selectionHash mapBlockIndex) (hg' : Grown params selectionHash mapBlockIndex') :
    ∀ {p p' : List CBlockIndex}, Indexed mapBlockIndex p → Indexed mapBlockIndex' p' →
      p.map CBlockIndex.headerView = p'.map CBlockIndex.headerView →
      p.map CBlockIndex.stakeView = p'.map CBlockIndex.stakeView
  | [], [], _, _, _ => rfl
  | b :: r, b' :: r', ⟨hb, hr⟩, ⟨hb', hr'⟩, hh => by
    simp only [List.map_cons, List.cons.injEq] at hh ⊢
    have hv := grown_stakeView_eq hg hg' hr hr' hh.2
    have ht : b.nTime = b'.nTime :=
      (congrArg CBlockIndex.nTime hh.1 : b.headerView.nTime = b'.headerView.nTime)
    have hc := (grown_replay_head params selectionHash hg hb).symm.trans
      ((computeNextStakeModifier_congr params selectionHash hr hr' ht hv).trans
        (grown_replay_head params selectionHash hg' hb'))
    obtain ⟨hm, hf⟩ := Prod.mk.inj (Except.ok.inj hc)
    exact ⟨CBlockIndex.stakeView_eq_of_headerView hh.1 hm hf, hv⟩
  | [], _ :: _, _, _, hh => nomatch hh
  | _ :: _, [], _, _, hh => nomatch hh

/-- **Nodes agree on the modifiers.** Two block indexes grown by `ComputeNextStakeModifier`, from
any blocks added in any order, store the same `nStakeModifier` and generated flag on every entry
of two stored chains whose entries agree on everything else (time, hash, proof-of-stake fields;
`nHeight` and the checksum may differ): the modifiers are a function of the blocks alone. -/
theorem grown_agree {mapBlockIndex mapBlockIndex' : BlockMap}
    (hg : Grown params selectionHash mapBlockIndex) (hg' : Grown params selectionHash mapBlockIndex')
    {h h' : Nat} {p p' : List CBlockIndex} (hp : mapBlockIndex h = some p)
    (hp' : mapBlockIndex' h' = some p')
    (hhdr : p.map CBlockIndex.headerView = p'.map CBlockIndex.headerView) :
    p.map (fun b => (b.nStakeModifier, b.generatedStakeModifier)) =
      p'.map (fun b => (b.nStakeModifier, b.generatedStakeModifier)) := by
  have hv := congrArg (List.map fun b : CBlockIndex => (b.nStakeModifier, b.generatedStakeModifier))
    (grown_stakeView_eq params selectionHash hg hg' (grown_indexed params selectionHash hg h p hp)
      (grown_indexed params selectionHash hg' h' p' hp') hhdr)
  simpa only [List.map_map] using hv

/-! A second history, on a node that numbers its entries otherwise: a sibling of `exampleChild`
at time `60`, which keeps the genesis modifier, is added before `exampleChild` and
`exampleGrandchild`, and every entry has another height. -/

def exampleSibling : CBlockIndex := ⟨1, 60, 5, false, false, false, 0, 0, 0, by decide⟩

/-- `b` with height `b.nHeight + 10`. -/
def relabel (b : CBlockIndex) : CBlockIndex := { b with nHeight := b.nHeight + 10 }

def exampleForkIndex : BlockMap :=
  insertEntry (insertEntry (insertEntry (insertEntry (fun _ => none) (relabel exampleGenesis) [])
    exampleSibling [relabel exampleGenesis]) (relabel exampleChild) [relabel exampleGenesis])
    (relabel exampleGrandchild) [relabel exampleChild, relabel exampleGenesis]

theorem grown_exampleForkIndex : Grown mainParams exampleSelectionHash exampleForkIndex :=
  .add (b := relabel exampleGrandchild)
    (.add (b := relabel exampleChild)
      (.add (b := exampleSibling)
        (.add (b := relabel exampleGenesis) .empty (.inl rfl) rfl (by decide))
        (.inr ⟨1, rfl⟩) rfl (by decide))
      (.inr ⟨1, rfl⟩) rfl (by decide))
    (.inr ⟨2, rfl⟩) rfl (by decide)

theorem grown_agree_exampleFork :
    Grown mainParams exampleSelectionHash exampleIndex ∧
    Grown mainParams exampleSelectionHash exampleForkIndex ∧
    exampleIndex 3 = some [exampleGrandchild, exampleChild, exampleGenesis] ∧
    exampleForkIndex 3 =
      some [relabel exampleGrandchild, relabel exampleChild, relabel exampleGenesis] ∧
    [exampleGrandchild, exampleChild, exampleGenesis] ≠
      [relabel exampleGrandchild, relabel exampleChild, relabel exampleGenesis] ∧
    [exampleGrandchild, exampleChild, exampleGenesis].map CBlockIndex.headerView =
      [relabel exampleGrandchild, relabel exampleChild, relabel exampleGenesis].map
        CBlockIndex.headerView ∧
    [exampleGrandchild, exampleChild, exampleGenesis].map
        (fun b => (b.nStakeModifier, b.generatedStakeModifier)) =
      [relabel exampleGrandchild, relabel exampleChild, relabel exampleGenesis].map
        (fun b => (b.nStakeModifier, b.generatedStakeModifier)) :=
  ⟨grown_exampleIndex, grown_exampleForkIndex, rfl, rfl, by decide, by decide,
    grown_agree mainParams exampleSelectionHash grown_exampleIndex grown_exampleForkIndex
      (rfl : exampleIndex 3 = _) (rfl : exampleForkIndex 3 = _) (by decide)⟩

end Store

end Emrals
