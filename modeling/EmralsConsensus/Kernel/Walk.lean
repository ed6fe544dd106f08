import EmralsConsensus.Kernel.Locate

/-!
# What `GetKernelStakeModifierV03` returns

On a block index with consistent heights, the walk of `GetKernelStakeModifierV03` meets the
entries above `pindexFrom` one by one, in increasing height, and stops at the first generated one
that is late enough. Which entries it meets depends on where `pindexPrev` is:

* off the active chain, the ancestors of `pindexPrev` above `pindexFrom` (by `Next` up to the
  fork, then by `tmpChain`); past `pindexPrev` it reads `tmpChain[tmpChain.size()]`;
* on the active chain, the active chain above `pindexFrom` up to the tip, past `pindexPrev`;
  past the tip it reaches the best block.

* `Climbs up pindex n`: from `pindex` with index `n`, the advances meet the entries of `up` in
  order, then end with `E`. **`kernelLoop_climbs`**: the loop then returns the first late entry of
  `up`, or ends as `E` says.
* `climbs_of_next`, `climbs_of_tmp`: the two ways of advancing produce climbs; `climbs_of_tops`:
  all of `tmpChain` is one climb. `collectTmpChain_tops`: `tmpChain` is the part of
  `pindexPrev`'s chain off the active chain.
* `getKernelStakeModifierV03_of_climbs`: the function's result over a climb from `pindexFrom`.
* `getKernelStakeModifierV03_offChain`, `getKernelStakeModifierV03_onChain`: the two results,
  joined in **`getKernelStakeModifierV03_eq`**. `getKernelStakeModifierV03_ne_outOfFuel`: with
  them, the model's bound on the loop is never reached.
-/

namespace Emrals

/-- A generated entry at or after `nThreshold`: the walk stops on the first one it meets. -/
def isLate (nThreshold : Int) (b : CBlockIndex) : Bool :=
  b.generatedStakeModifier && decide (nThreshold ≤ b.nTime)

/-- The chains met climbing `up` from `base`, each entry on top of the previous one. -/
def stack : List CBlockIndex → List CBlockIndex → List (List CBlockIndex)
  | [], _ => []
  | c :: up, base => (c :: base) :: stack up (c :: base)

/-- The suffixes of `down ++ base` from the top, one for each entry of `down`. -/
def tops : List CBlockIndex → List CBlockIndex → List (List CBlockIndex)
  | [], _ => []
  | d :: down, base => (d :: (down ++ base)) :: tops down base

@[simp] theorem length_stack : ∀ up base : List CBlockIndex, (stack up base).length = up.length
  | [], _ => rfl
  | _ :: up, _ => by simp [stack, length_stack up]

@[simp] theorem length_tops : ∀ down base : List CBlockIndex, (tops down base).length = down.length
  | [], _ => rfl
  | _ :: down, base => by simp [tops, length_tops down base]

theorem stack_append_singleton (c : CBlockIndex) : ∀ up base : List CBlockIndex,
    stack (up ++ [c]) base = stack up base ++ [c :: (up.reverse ++ base)]
  | [], _ => rfl
  | d :: up, base => by simp [stack, stack_append_singleton c up (d :: base)]

theorem tops_reverse : ∀ down base : List CBlockIndex,
    (tops down base).reverse = stack down.reverse base
  | [], _ => rfl
  | d :: down, base => by simp [tops, tops_reverse down base, stack_append_singleton]

/-- `pindex`, with head `b`, advances by `Next`: `tmpChain` is empty, or `b` is below the height
under its first entry. -/
def NextMode (tmpChain : List (List CBlockIndex)) (b : CBlockIndex) : Prop :=
  match tmpChain with
  | [] => True
  | [] :: _ => False
  | (t0 :: _) :: _ => (b.nHeight : Int) < t0.nHeight - 1

section Climb

variable (params : ConsensusParams) (chainActive : CChain) (tmpChain : List (List CBlockIndex))
  (E : Except Failure (List CBlockIndex × Nat))

theorem kernelAdvance_of_nextMode {b : CBlockIndex} {r : List CBlockIndex} {n : Nat}
    (h : NextMode tmpChain b) :
    kernelAdvance chainActive tmpChain (b :: r) n = .ok (chainActive.next (b :: r), n) := by
  unfold kernelAdvance
  rcases tmpChain with _ | ⟨_ | ⟨t0, x⟩, y⟩
  · rfl
  · exact h.elim
  · simp only [NextMode] at h
    simp [not_le.mpr h]

theorem kernelAdvance_of_tmp {t0 : CBlockIndex} {x : List CBlockIndex}
    {y : List (List CBlockIndex)} (hT : tmpChain = (t0 :: x) :: y) {b : CBlockIndex}
    {r : List CBlockIndex} {n : Nat} (h : (t0.nHeight : Int) - 1 ≤ b.nHeight) :
    (∀ p, tmpChain[n]? = some p → kernelAdvance chainActive tmpChain (b :: r) n = .ok (p, n + 1)) ∧
    (tmpChain[n]? = none → kernelAdvance chainActive tmpChain (b :: r) n =
      .error (.undefined "tmpChain[n] with n >= tmpChain.size()")) := by
  subst hT
  exact ⟨fun p hp => by simp [kernelAdvance, h, hp], fun hp => by simp [kernelAdvance, h, hp]⟩

/-- From `pindex` with index `n`, each advance moves to the next entry of `up` (on some chain),
within `tmpChain`, and after the last one the advance is `E`. -/
def Climbs : List CBlockIndex → List CBlockIndex → Nat → Prop
  | [], pindex, n => kernelAdvance chainActive tmpChain pindex n = E
  | c :: up, pindex, n => ∃ r n', kernelAdvance chainActive tmpChain pindex n = .ok (c :: r, n') ∧
      n' ≤ tmpChain.length ∧ Climbs up (c :: r) n'

variable (nThreshold : Int) (fPrintProofOfStake : Bool) (nAdjustedTime : Int)
  (nStakeModifierSelectionInterval : Nat)

/-- How the loop ends once the advances are exhausted: `E`'s own failure, or the best block
reached from `old`. -/
def kernelStop (old : CBlockIndex) : Failure :=
  match E with
  | .error e => e
  | .ok _ => reachedBestBlock params fPrintProofOfStake nAdjustedTime
      nStakeModifierSelectionInterval old

theorem kernelLoop_succ {b c : CBlockIndex} {r r' : List CBlockIndex} {n n' hm tm fuel : Nat}
    (htm : (tm : Int) < nThreshold)
    (hadv : kernelAdvance chainActive tmpChain (b :: r) n = .ok (c :: r', n'))
    (hn : n' ≤ tmpChain.length) :
    kernelLoop params chainActive tmpChain nThreshold fPrintProofOfStake nAdjustedTime
        nStakeModifierSelectionInterval (fuel + 1) (b :: r) n (hm, tm) =
      kernelLoop params chainActive tmpChain nThreshold fPrintProofOfStake nAdjustedTime
        nStakeModifierSelectionInterval fuel (c :: r') n'
        (if c.generatedStakeModifier then (c.nHeight, c.nTime) else (hm, tm)) := by
  show (if (tm : Int) < nThreshold then _ else _) = _
  rw [if_pos htm, hadv]
  exact if_neg (not_lt.mpr hn)

theorem kernelLoop_of_le {p : List CBlockIndex} {n hm tm fuel : Nat} (htm : nThreshold ≤ tm) :
    kernelLoop params chainActive tmpChain nThreshold fPrintProofOfStake nAdjustedTime
      nStakeModifierSelectionInterval (fuel + 1) p n (hm, tm) = .ok (p, hm, tm) := by
  show (if (tm : Int) < nThreshold then _ else _) = _
  exact if_neg (not_lt.mpr htm)

theorem kernelLoop_of_stop (hE : (∃ n₀, E = .ok ([], n₀)) ∨ ∃ e, E = .error e) {b : CBlockIndex}
    {r : List CBlockIndex} {n hm tm fuel : Nat} (htm : (tm : Int) < nThreshold)
    (hadv : kernelAdvance chainActive tmpChain (b :: r) n = E) :
    kernelLoop params chainActive tmpChain nThreshold fPrintProofOfStake nAdjustedTime
        nStakeModifierSelectionInterval (fuel + 1) (b :: r) n (hm, tm) =
      .error (kernelStop params E fPrintProofOfStake nAdjustedTime nStakeModifierSelectionInterval
        b) := by
  show (if (tm : Int) < nThreshold then _ else _) = _
  rw [if_pos htm, hadv]
  rcases hE with ⟨n₀, rfl⟩ | ⟨e, rfl⟩ <;> rfl

theorem kernelLoop_climbs (hE : (∃ n₀, E = .ok ([], n₀)) ∨ ∃ e, E = .error e) :
    ∀ (up : List CBlockIndex) (b : CBlockIndex) (r : List CBlockIndex) (n hm tm fuel : Nat),
      Climbs chainActive tmpChain E up (b :: r) n → up.length < fuel → (tm : Int) < nThreshold →
      (kernelLoop params chainActive tmpChain nThreshold fPrintProofOfStake nAdjustedTime
          nStakeModifierSelectionInterval fuel (b :: r) n (hm, tm)).map
          (fun x => (x.1.head?, x.2)) =
        match up.find? (isLate nThreshold) with
        | some c => .ok (some c, c.nHeight, c.nTime)
        | none => .error (kernelStop params E fPrintProofOfStake nAdjustedTime
            nStakeModifierSelectionInterval (up.getLastD b))
  | [], b, r, n, hm, tm, fuel + 1, hc, _, htm => by
    rw [kernelLoop_of_stop params chainActive tmpChain E nThreshold fPrintProofOfStake
      nAdjustedTime nStakeModifierSelectionInterval hE htm hc]
    rfl
  | c :: up, b, r, n, hm, tm, fuel + 1, ⟨r', n', hadv, hn, hc⟩, hlen, htm => by
    rw [kernelLoop_succ params chainActive tmpChain nThreshold fPrintProofOfStake nAdjustedTime
      nStakeModifierSelectionInterval htm hadv hn, List.find?_cons, List.getLastD_cons]
    cases hl : isLate nThreshold c
    · have htm' : ((if c.generatedStakeModifier then (c.nHeight, c.nTime) else (hm, tm)).2 : Int) <
          nThreshold := by
        simp only [isLate, Bool.and_eq_false_iff, decide_eq_false_iff_not, not_le] at hl
        split_ifs with hg
        · simpa [hg] using hl
        · exact htm
      exact kernelLoop_climbs hE up c r' n' _ _ fuel hc (Nat.lt_of_succ_lt_succ hlen) htm'
    · obtain ⟨fuel, rfl⟩ : ∃ f, fuel = f + 1 :=
        ⟨fuel - 1, by have := Nat.lt_of_succ_lt_succ hlen; omega⟩
      simp only [isLate, Bool.and_eq_true, decide_eq_true_eq] at hl
      rw [if_pos hl.1, kernelLoop_of_le params chainActive tmpChain nThreshold fPrintProofOfStake
        nAdjustedTime nStakeModifierSelectionInterval hl.2]
      rfl

theorem climbs_of_next (ht : HeightsOk chainActive.tip) (hb : Nat)
    (hmode : ∀ b : CBlockIndex, b.nHeight < hb → NextMode tmpChain b) {up : List CBlockIndex} :
    ∀ (mid cur : List CBlockIndex) (n : Nat), cur ≠ [] → n ≤ tmpChain.length →
      mid.reverse ++ cur <:+ chainActive.tip → (mid.reverse ++ cur).length ≤ hb + 1 →
      Climbs chainActive tmpChain E up (mid.reverse ++ cur) n →
      Climbs chainActive tmpChain E (mid ++ up) cur n
  | [], _, _, _, _, _, _, hc => hc
  | c :: mid, b :: r, n, _, hn, hs, hlen, hc => by
    simp only [List.reverse_cons, List.append_assoc, List.singleton_append] at hs hlen hc
    have hcb : c :: b :: r <:+ chainActive.tip := (List.suffix_append _ _).trans hs
    have hc' : c.nHeight = r.length + 1 := ht.nHeight hcb
    refine ⟨b :: r, n, ?_, hn, climbs_of_next ht hb hmode mid (c :: b :: r) n (List.cons_ne_nil _ _)
      hn hs hlen hc⟩
    have hbh : b.nHeight < hb := by
      rw [ht.nHeight ((List.suffix_cons _ _).trans hcb)]
      simp only [List.length_append, List.length_reverse, List.length_cons] at hlen
      omega
    rw [kernelAdvance_of_nextMode chainActive tmpChain (hmode b hbh),
      CChain.next_of_suffix ht ((List.suffix_cons _ _).trans hcb), ← hc',
      CChain.get_of_suffix ht hcb]

theorem climbs_of_tmp {t0 : CBlockIndex} {x : List CBlockIndex} {y : List (List CBlockIndex)}
    (hT : tmpChain = (t0 :: x) :: y) :
    ∀ (up cur : List CBlockIndex) (b : CBlockIndex) (r : List CBlockIndex) (n : Nat),
      tmpChain.drop n = stack up cur → HeightsOk (up.reverse ++ cur) →
      (t0.nHeight : Int) - 1 ≤ b.nHeight → t0.nHeight ≤ cur.length + 1 →
      Climbs chainActive tmpChain (.error (.undefined "tmpChain[n] with n >= tmpChain.size()"))
        up (b :: r) n
  | [], _, _, _, n, hd, _, hb, _ => by
    have hnone : tmpChain[n]? = none := by rw [← List.head?_drop, hd]; rfl
    exact (kernelAdvance_of_tmp chainActive tmpChain hT hb).2 hnone
  | c :: up, cur, _, _, n, hd, hh, hb, hcur => by
    have hget : tmpChain[n]? = some (c :: cur) := by rw [← List.head?_drop, hd]; rfl
    have hd' : tmpChain.drop (n + 1) = stack up (c :: cur) := by rw [← List.tail_drop, hd]; rfl
    have hh' : HeightsOk (up.reverse ++ c :: cur) := by simpa using hh
    have hc : c.nHeight = cur.length := hh'.nHeight (List.suffix_append _ _)
    obtain ⟨hn, -⟩ := List.getElem?_eq_some_iff.mp hget
    exact ⟨cur, n + 1, (kernelAdvance_of_tmp chainActive tmpChain hT hb).1 _ hget, hn,
      climbs_of_tmp hT up (c :: cur) c cur (n + 1) hd' hh' (by omega) (by simp; omega)⟩

end Climb

/-! ## `tmpChain` -/

section TmpChain

variable (chainActive : CChain)

theorem collectTmpChain_tops (ht : HeightsOk chainActive.tip) {s : List CBlockIndex} :
    ∀ d1 d2 : List CBlockIndex, (∀ z ∈ tops d1 (d2 ++ s), ¬ z <:+ chainActive.tip) →
      (d2 = [] ∨ (d2 ≠ [] ∧ d2 ++ s <:+ chainActive.tip)) →
      collectTmpChain chainActive (d1 ++ d2).length (d1 ++ d2 ++ s) = .ok (tops d1 (d2 ++ s))
  | [], [], _, _ => rfl
  | [], e :: d2, _, h => by
    have hc : chainActive.contains (e :: (d2 ++ s)) = true :=
      (CChain.contains_iff ht).mpr (h.resolve_left (List.cons_ne_nil _ _)).2
    simp [collectTmpChain, hc, tops]
  | d :: d1, d2, hn, h => by
    have hnc : chainActive.contains (d :: (d1 ++ d2 ++ s)) = false := by
      rw [Bool.eq_false_iff]
      intro hc
      exact hn _ (List.mem_cons_self _ _) (by simpa using (CChain.contains_iff ht).mp hc)
    have := collectTmpChain_tops ht d1 d2 (fun z hz => hn z (List.mem_cons_of_mem _ hz)) h
    rw [show (d :: d1 ++ d2).length = (d1 ++ d2).length + 1 by simp, List.cons_append,
      List.cons_append, collectTmpChain, if_neg (by rw [hnc]; decide), this]
    simp [tops, Except.map]

theorem exists_split_tops (tip s : List CBlockIndex) : ∀ down : List CBlockIndex,
    ∃ d1 d2, down = d1 ++ d2 ∧ (∀ z ∈ tops d1 (d2 ++ s), ¬ z <:+ tip) ∧
      (d2 = [] ∨ (d2 ≠ [] ∧ d2 ++ s <:+ tip))
  | [] => ⟨[], [], rfl, by simp [tops], .inl rfl⟩
  | d :: down => by
    by_cases hd : d :: (down ++ s) <:+ tip
    · exact ⟨[], d :: down, rfl, by simp [tops], .inr ⟨List.cons_ne_nil _ _, hd⟩⟩
    · obtain ⟨d1, d2, rfl, hn, h⟩ := exists_split_tops tip s down
      refine ⟨d :: d1, d2, rfl, ?_, h⟩
      simp only [tops, List.mem_cons, forall_eq_or_imp]
      exact ⟨by simpa using hd, hn⟩

theorem tops_reverse_cons {d1 base : List CBlockIndex} (hd1 : d1 ≠ [])
    (hp : HeightsOk (d1 ++ base)) :
    ∃ t0 hiq, d1.reverse = t0 :: hiq ∧ t0.nHeight = base.length ∧
      (tops d1 base).reverse = (t0 :: base) :: stack hiq (t0 :: base) := by
  obtain ⟨t0, hiq, hrev⟩ := List.exists_cons_of_ne_nil (List.reverse_ne_nil_iff.mpr hd1)
  refine ⟨t0, hiq, hrev, hp.nHeight ?_, by rw [tops_reverse, hrev]; rfl⟩
  rw [List.reverse_eq_cons_iff.mp hrev]
  simp

theorem nextMode_tops {d1 base : List CBlockIndex} (hd1 : d1 ≠ []) (hp : HeightsOk (d1 ++ base))
    {b : CBlockIndex} (hb : b.nHeight + 1 < base.length) : NextMode (tops d1 base).reverse b := by
  obtain ⟨t0, hiq, -, ht0, hT⟩ := tops_reverse_cons hd1 hp
  rw [hT]
  show (b.nHeight : Int) < t0.nHeight - 1
  omega

theorem climbs_of_tops {d1 base : List CBlockIndex} (hd1 : d1 ≠ []) (hp : HeightsOk (d1 ++ base))
    {b : CBlockIndex} {r : List CBlockIndex} (hb : base.length ≤ b.nHeight + 1) :
    Climbs chainActive (tops d1 base).reverse
      (.error (.undefined "tmpChain[n] with n >= tmpChain.size()")) d1.reverse (b :: r) 0 := by
  obtain ⟨t0, hiq, hrev, ht0, hT⟩ := tops_reverse_cons hd1 hp
  rw [hrev]
  exact climbs_of_tmp chainActive _ hT (t0 :: hiq) base b r 0
    (by rw [List.drop_zero, tops_reverse, hrev]) (by rwa [← hrev, List.reverse_reverse])
    (by omega) (by omega)

end TmpChain

/-! ## The two results -/

section Result

variable (params : ConsensusParams) (chainActive : CChain) (mapBlockIndex : BlockMap)
  (fPrintProofOfStake : Bool) (nAdjustedTime : Int)

theorem nDepth_toNat {prev f : CBlockIndex} {rest s : List CBlockIndex}
    (hp : HeightsOk (prev :: rest)) (hf : f :: s <:+ prev :: rest) :
    ((prev.nHeight : Int) - ((f.nHeight : Int) - 1)).toNat = rest.length - s.length + 1 := by
  have hl := hf.length_le
  simp only [List.length_cons] at hl
  rw [hp.nHeight (List.suffix_refl _), hp.nHeight hf]
  omega

theorem nDepth_nonneg {prev f : CBlockIndex} {rest s : List CBlockIndex}
    (hp : HeightsOk (prev :: rest)) (hf : f :: s <:+ prev :: rest) :
    ¬ (prev.nHeight : Int) - ((f.nHeight : Int) - 1) < 0 := by
  have := nDepth_toNat hp hf
  omega

theorem collectTmpChain_split (ht : HeightsOk chainActive.tip) {f prev : CBlockIndex}
    {s above rest : List CBlockIndex} (hp : HeightsOk (above.reverse ++ f :: s))
    (hpr : above.reverse ++ f :: s = prev :: rest) :
    ∃ d1 d2, above.reverse ++ [f] = d1 ++ d2 ∧ (d2 = [] ∨ (d2 ≠ [] ∧ d2 ++ s <:+ chainActive.tip)) ∧
      collectTmpChain chainActive ((prev.nHeight : Int) - ((f.nHeight : Int) - 1)).toNat
        (prev :: rest) = .ok (tops d1 (d2 ++ s)) := by
  obtain ⟨d1, d2, hsplit, hn, hd2⟩ := exists_split_tops chainActive.tip s (above.reverse ++ [f])
  refine ⟨d1, d2, hsplit, hd2, ?_⟩
  have hlen : rest.length - s.length + 1 = (d1 ++ d2).length := by
    have h1 := congrArg List.length hpr
    have h2 := congrArg List.length hsplit
    simp only [List.length_append, List.length_reverse, List.length_cons, List.length_nil]
      at h1 h2 ⊢
    omega
  rw [nDepth_toNat (hpr ▸ hp) (hpr ▸ List.suffix_append _ _), hlen, ← hpr,
    show above.reverse ++ f :: s = d1 ++ d2 ++ s by simp [← hsplit]]
  exact collectTmpChain_tops chainActive ht d1 d2 hn hd2

theorem getKernelStakeModifierV03_of_loop {f prev : CBlockIndex} {s rest : List CBlockIndex}
    {tmpChain : List (List CBlockIndex)} {y : Except Failure (Option CBlockIndex × Nat × Nat)}
    (hidx : mapBlockIndex f.hashBlock = some (f :: s))
    (hdepth : ¬ (prev.nHeight : Int) - ((f.nHeight : Int) - 1) < 0)
    (hT : collectTmpChain chainActive ((prev.nHeight : Int) - ((f.nHeight : Int) - 1)).toNat
      (prev :: rest) = .ok tmpChain)
    (hloop : (kernelLoop params chainActive tmpChain.reverse
      (f.nTime + getStakeModifierSelectionInterval params) fPrintProofOfStake nAdjustedTime
      (getStakeModifierSelectionInterval params)
      (chainActive.tip.length + tmpChain.reverse.length + 1)
      (f :: s) 0 (f.nHeight, f.nTime)).map (fun d => (d.1.head?, d.2)) = y) :
    getKernelStakeModifierV03 params chainActive mapBlockIndex (prev :: rest) f.hashBlock
        fPrintProofOfStake nAdjustedTime =
      y >>= fun d => match d.1 with
        | some b => .ok (b.nStakeModifier, d.2)
        | none => .error (.undefined "null dereference of pindex") := by
  unfold getKernelStakeModifierV03
  simp only [hidx, hdepth, ↓reduceIte, hT, ok_bind]
  subst hloop
  rcases kernelLoop params chainActive tmpChain.reverse
    (f.nTime + getStakeModifierSelectionInterval params) fPrintProofOfStake nAdjustedTime
    (getStakeModifierSelectionInterval params)
    (chainActive.tip.length + tmpChain.reverse.length + 1) (f :: s) 0 (f.nHeight, f.nTime)
    with e | ⟨_ | ⟨b, p⟩, h, t⟩ <;> rfl

theorem getKernelStakeModifierV03_of_climbs {f prev : CBlockIndex} {s rest up : List CBlockIndex}
    {tmpChain : List (List CBlockIndex)} {E : Except Failure (List CBlockIndex × Nat)}
    (hE : (∃ n₀, E = .ok ([], n₀)) ∨ ∃ e, E = .error e)
    (hidx : mapBlockIndex f.hashBlock = some (f :: s))
    (hdepth : ¬ (prev.nHeight : Int) - ((f.nHeight : Int) - 1) < 0)
    (hT : collectTmpChain chainActive ((prev.nHeight : Int) - ((f.nHeight : Int) - 1)).toNat
      (prev :: rest) = .ok tmpChain)
    (hc : Climbs chainActive tmpChain.reverse E up (f :: s) 0)
    (hlen : up.length ≤ chainActive.tip.length + tmpChain.length) :
    getKernelStakeModifierV03 params chainActive mapBlockIndex (prev :: rest) f.hashBlock
        fPrintProofOfStake nAdjustedTime =
      match up.find? (isLate (f.nTime + getStakeModifierSelectionInterval params)) with
      | some c => .ok (c.nStakeModifier, c.nHeight, c.nTime)
      | none => .error (kernelStop params E fPrintProofOfStake nAdjustedTime
          (getStakeModifierSelectionInterval params) (up.getLastD f)) := by
  have hthr : (f.nTime : Int) < f.nTime + getStakeModifierSelectionInterval params := by
    have := getStakeModifierSelectionInterval_pos params
    omega
  have hloop := kernelLoop_climbs params chainActive _ E
    (f.nTime + getStakeModifierSelectionInterval params) fPrintProofOfStake nAdjustedTime
    (getStakeModifierSelectionInterval params) hE up f s 0 f.nHeight f.nTime
    (chainActive.tip.length + tmpChain.reverse.length + 1) hc
    (by rw [List.length_reverse]; omega) hthr
  rw [getKernelStakeModifierV03_of_loop params chainActive mapBlockIndex fPrintProofOfStake
    nAdjustedTime hidx hdepth hT hloop]
  cases up.find? (isLate (f.nTime + getStakeModifierSelectionInterval params)) <;> rfl

/-- **On the active chain.** When `pindexPrev` is on the active chain, `tmpChain` is empty and
the walk follows `Next` from `pindexFrom` up to the tip, whatever lies above `pindexPrev`: the
result is the first late entry of the active chain above `pindexFrom`, or the best block is
reached from the tip. -/
theorem getKernelStakeModifierV03_onChain (ht : HeightsOk chainActive.tip) {f : CBlockIndex}
    {s up pindexPrev : List CBlockIndex} (htip : chainActive.tip = up.reverse ++ f :: s)
    (hprev : pindexPrev <:+ chainActive.tip) (hf : f :: s <:+ pindexPrev)
    (hidx : mapBlockIndex f.hashBlock = some (f :: s)) :
    getKernelStakeModifierV03 params chainActive mapBlockIndex pindexPrev f.hashBlock
        fPrintProofOfStake nAdjustedTime =
      match up.find? (isLate (f.nTime + getStakeModifierSelectionInterval params)) with
      | some c => .ok (c.nStakeModifier, c.nHeight, c.nTime)
      | none => .error (reachedBestBlock params fPrintProofOfStake nAdjustedTime
          (getStakeModifierSelectionInterval params) (up.getLastD f)) := by
  obtain ⟨prev, rest, rfl⟩ :=
    List.exists_cons_of_ne_nil (fun h => by simp [h] at hf : pindexPrev ≠ [])
  have hT : collectTmpChain chainActive ((prev.nHeight : Int) - ((f.nHeight : Int) - 1)).toNat
      (prev :: rest) = .ok [] := by
    rw [nDepth_toNat (ht.of_suffix hprev) hf, collectTmpChain,
      if_pos ((CChain.contains_iff ht).mpr hprev)]
  obtain ⟨tb, tr, htb⟩ := List.exists_cons_of_ne_nil (by simp [htip] : chainActive.tip ≠ [])
  -- past the tip, `Next` is null
  have htop : Climbs chainActive [] (.ok ([], 0)) [] (up.reverse ++ f :: s) 0 := by
    have hs : tb :: tr <:+ chainActive.tip := htb ▸ List.suffix_refl _
    show kernelAdvance chainActive [] _ 0 = _
    rw [← htip, htb, kernelAdvance_of_nextMode chainActive [] trivial,
      CChain.next_of_suffix ht hs, CChain.get_eq_nil (by rw [htb]; simp)]
  have hclimb := climbs_of_next chainActive [] (.ok ([], 0)) ht chainActive.tip.length
    (fun _ _ => trivial) up (f :: s) 0 (List.cons_ne_nil _ _) le_rfl (htip ▸ List.suffix_refl _)
    (by rw [← htip]; omega) htop
  rw [List.append_nil] at hclimb
  exact getKernelStakeModifierV03_of_climbs params chainActive mapBlockIndex fPrintProofOfStake
    nAdjustedTime (.inl ⟨0, rfl⟩) hidx (nDepth_nonneg (ht.of_suffix hprev) hf) hT hclimb
    (by simp [htip])

example : getKernelStakeModifierV03 mainParams ⟨[kernelC, kernelB, kernelA, kernelGenesis]⟩
    kernelIndex [kernelB, kernelA, kernelGenesis] kernelGenesis.hashBlock false 0 =
      .ok (kernelC.nStakeModifier, kernelC.nHeight, kernelC.nTime) :=
  (getKernelStakeModifierV03_onChain mainParams ⟨[kernelC, kernelB, kernelA, kernelGenesis]⟩
    kernelIndex false 0 (by decide)
    (by decide : [kernelC, kernelB, kernelA, kernelGenesis] =
      [kernelA, kernelB, kernelC].reverse ++ [kernelGenesis])
    (by decide) (by decide) (by decide)).trans (by decide)

/-- **Off the active chain.** When `pindexPrev` is off the active chain, the walk meets exactly
the ancestors of `pindexPrev` above `pindexFrom`, in increasing height: the result is the first
late one, and when there is none the walk reads `tmpChain[tmpChain.size()]`. -/
theorem getKernelStakeModifierV03_offChain (ht : HeightsOk chainActive.tip) {f : CBlockIndex}
    {s above : List CBlockIndex} (hp : HeightsOk (above.reverse ++ f :: s))
    (hoff : ¬ above.reverse ++ f :: s <:+ chainActive.tip)
    (hidx : mapBlockIndex f.hashBlock = some (f :: s)) :
    getKernelStakeModifierV03 params chainActive mapBlockIndex (above.reverse ++ f :: s)
        f.hashBlock fPrintProofOfStake nAdjustedTime =
      match above.find? (isLate (f.nTime + getStakeModifierSelectionInterval params)) with
      | some c => .ok (c.nStakeModifier, c.nHeight, c.nTime)
      | none => .error (.undefined "tmpChain[n] with n >= tmpChain.size()") := by
  obtain ⟨prev, rest, hpr⟩ := List.exists_cons_of_ne_nil (by simp : above.reverse ++ f :: s ≠ [])
  obtain ⟨d1, d2, hsplit, hd2, hT⟩ := collectTmpChain_split chainActive ht hp hpr
  have hdepth := nDepth_nonneg (hpr ▸ hp) (hpr ▸ List.suffix_append above.reverse (f :: s))
  have hpd : above.reverse ++ f :: s = d1 ++ (d2 ++ s) := by
    rw [← List.append_assoc, ← hsplit]
    simp
  have hd1 : d1 ≠ [] := by
    rintro rfl
    rcases hd2 with rfl | ⟨-, hc⟩
    · simp at hsplit
    · exact hoff (hpd ▸ hc)
  have hp' : HeightsOk (d1 ++ (d2 ++ s)) := hpd ▸ hp
  rw [hpr]
  rcases List.eq_nil_or_concat d2 with rfl | ⟨L, b, rfl⟩
  · -- every suffix down to `pindexFrom` is off the active chain: `tmpChain` starts at it
    rw [List.nil_append] at hT hp'
    have hup : d1.reverse = f :: above := by rw [← List.append_nil d1, ← hsplit]; simp
    have hc := climbs_of_tops chainActive hd1 hp' (b := f) (r := s)
      (by rw [hp.nHeight (List.suffix_append _ _)]; omega)
    rw [hup] at hc
    rw [getKernelStakeModifierV03_of_climbs params chainActive mapBlockIndex fPrintProofOfStake
      nAdjustedTime (.inr ⟨_, rfl⟩) hidx hdepth hT hc
      (by rw [← hup, List.length_reverse, length_tops]; exact Nat.le_add_left _ _)]
    have hnl : isLate (f.nTime + getStakeModifierSelectionInterval params) f = false := by
      have := getStakeModifierSelectionInterval_pos params
      simp only [isLate, Bool.and_eq_false_iff, decide_eq_false_iff_not, not_le]
      omega
    simp only [List.find?_cons, hnl]
    rfl
  · -- the fork is at or above `pindexFrom`: `Next` up to it, then `tmpChain`
    simp only [List.concat_eq_append, List.append_assoc, List.singleton_append] at hsplit hd2 hT hp'
    obtain ⟨habove, hfb⟩ := List.append_inj' (hsplit.trans (List.append_assoc _ _ _).symm) rfl
    obtain rfl : f = b := List.singleton_inj.mp hfb
    have hbase : L ++ f :: s <:+ chainActive.tip := (hd2.resolve_left (by simp)).2
    obtain ⟨bb, rr, hbb⟩ := List.exists_cons_of_ne_nil (by simp : L ++ f :: s ≠ [])
    have hbh : bb.nHeight = rr.length := hp'.nHeight (hbb ▸ List.suffix_append _ _)
    have hinner := climbs_of_tops chainActive hd1 hp' (b := bb) (r := rr) (by simp [hbb, hbh])
    rw [← hbb] at hinner
    have hclimb := climbs_of_next chainActive (tops d1 (L ++ f :: s)).reverse _ ht
      ((L ++ f :: s).length - 1) (fun _ hb => nextMode_tops hd1 hp' (by omega)) L.reverse
      (f :: s) 0 (List.cons_ne_nil _ _) (Nat.zero_le _) (by simpa using hbase)
      (by simp only [List.reverse_reverse, List.length_append, List.length_cons]; omega)
      (by simpa using hinner)
    have hlen := hbase.length_le
    simp only [List.length_append, List.length_cons] at hlen
    rw [show above = L.reverse ++ d1.reverse by
      rw [← List.reverse_reverse above, habove, List.reverse_append]]
    exact getKernelStakeModifierV03_of_climbs params chainActive mapBlockIndex fPrintProofOfStake
      nAdjustedTime (.inr ⟨_, rfl⟩) hidx hdepth hT hclimb
      (by simp only [List.length_append, List.length_reverse, length_tops]; omega)

example : getKernelStakeModifierV03 mainParams ⟨[kernelA, kernelGenesis]⟩ kernelIndex
    ([kernelFork].reverse ++ [kernelA, kernelGenesis]) kernelA.hashBlock false 0 =
      .error (.undefined "tmpChain[n] with n >= tmpChain.size()") :=
  (getKernelStakeModifierV03_offChain mainParams ⟨[kernelA, kernelGenesis]⟩ kernelIndex false 0
    (by decide) (by decide) (by decide) (by decide)).trans (by decide)

/-- **The fuel is never exhausted.** On a block index with consistent heights, from an indexed
ancestor `pindexFrom` of `pindexPrev`, the walk ends before its bound. -/
theorem getKernelStakeModifierV03_ne_outOfFuel (ht : HeightsOk chainActive.tip) {f : CBlockIndex}
    {s pindexPrev : List CBlockIndex} (hp : HeightsOk pindexPrev) (hf : f :: s <:+ pindexPrev)
    (hidx : mapBlockIndex f.hashBlock = some (f :: s)) :
    getKernelStakeModifierV03 params chainActive mapBlockIndex pindexPrev f.hashBlock
      fPrintProofOfStake nAdjustedTime ≠ .error .outOfFuel := by
  by_cases hprev : pindexPrev <:+ chainActive.tip
  · obtain ⟨t, htip⟩ := hf.trans hprev
    rw [getKernelStakeModifierV03_onChain params chainActive mapBlockIndex fPrintProofOfStake
      nAdjustedTime ht (by rw [List.reverse_reverse, htip]) hprev hf hidx]
    split
    · exact fun h => by cases h
    · unfold reachedBestBlock
      split <;> exact fun h => by cases h
  · obtain ⟨a, rfl⟩ := hf
    rw [← List.reverse_reverse a] at hp hprev ⊢
    rw [getKernelStakeModifierV03_offChain params chainActive mapBlockIndex fPrintProofOfStake
      nAdjustedTime ht hp hprev hidx]
    split <;> exact fun h => by cases h

theorem getKernelStakeModifierV03_ne_outOfFuel_exampleFork :
    HeightsOk [kernelA, kernelGenesis] ∧ HeightsOk [kernelFork, kernelA, kernelGenesis] ∧
    [kernelA, kernelGenesis] <:+ [kernelFork, kernelA, kernelGenesis] ∧
    kernelIndex kernelA.hashBlock = some [kernelA, kernelGenesis] ∧
    getKernelStakeModifierV03 mainParams ⟨[kernelA, kernelGenesis]⟩ kernelIndex
        [kernelFork, kernelA, kernelGenesis] kernelA.hashBlock false 0 ≠ .error .outOfFuel :=
  ⟨by decide, by decide, List.suffix_cons _ _, rfl,
    getKernelStakeModifierV03_ne_outOfFuel mainParams ⟨[kernelA, kernelGenesis]⟩ kernelIndex false 0
      (by decide) (by decide) (List.suffix_cons _ _) rfl⟩

/-- **What `GetKernelStakeModifierV03` returns.** On a block index with consistent heights, from
an indexed `pindexFrom` whose descendants up to `pindexPrev` are `above` in increasing height, the
walk returns the modifier, height and time of the first generated entry at least a selection
interval after `pindexFrom` among:
* when `pindexPrev` is on the active chain, the active chain's entries above `pindexFrom`, up to
  the tip and past `pindexPrev`; when there is none it reaches the best block from the last;
* otherwise, `above`; when there is none it reads `tmpChain[tmpChain.size()]`. -/
theorem getKernelStakeModifierV03_eq (ht : HeightsOk chainActive.tip) {f : CBlockIndex}
    {s above : List CBlockIndex} (hp : HeightsOk (above.reverse ++ f :: s))
    (hidx : mapBlockIndex f.hashBlock = some (f :: s)) :
    getKernelStakeModifierV03 params chainActive mapBlockIndex (above.reverse ++ f :: s)
        f.hashBlock fPrintProofOfStake nAdjustedTime =
      if above.reverse ++ f :: s <:+ chainActive.tip then
        let up := (chainActive.tip.take (chainActive.tip.length - (s.length + 1))).reverse
        match up.find? (isLate (f.nTime + getStakeModifierSelectionInterval params)) with
        | some c => .ok (c.nStakeModifier, c.nHeight, c.nTime)
        | none => .error (reachedBestBlock params fPrintProofOfStake nAdjustedTime
            (getStakeModifierSelectionInterval params) (up.getLastD f))
      else
        match above.find? (isLate (f.nTime + getStakeModifierSelectionInterval params)) with
        | some c => .ok (c.nStakeModifier, c.nHeight, c.nTime)
        | none => .error (.undefined "tmpChain[n] with n >= tmpChain.size()") := by
  by_cases hprev : above.reverse ++ f :: s <:+ chainActive.tip
  · rw [if_pos hprev]
    obtain ⟨t, htip⟩ := (List.suffix_append above.reverse (f :: s)).trans hprev
    have htake : chainActive.tip.take (chainActive.tip.length - (s.length + 1)) = t := by
      rw [← htip, List.length_append, List.length_cons]
      exact List.take_left' (by omega)
    rw [htake]
    exact getKernelStakeModifierV03_onChain params chainActive mapBlockIndex fPrintProofOfStake
      nAdjustedTime ht (by rw [List.reverse_reverse, htip]) hprev (List.suffix_append _ _) hidx
  · rw [if_neg hprev]
    exact getKernelStakeModifierV03_offChain params chainActive mapBlockIndex fPrintProofOfStake
      nAdjustedTime ht hp hprev hidx

theorem getKernelStakeModifierV03_eq_exampleFork :
    HeightsOk [kernelA, kernelGenesis] ∧ HeightsOk ([kernelFork].reverse ++ [kernelA, kernelGenesis]) ∧
    kernelIndex kernelA.hashBlock = some [kernelA, kernelGenesis] ∧
    getKernelStakeModifierV03 mainParams ⟨[kernelA, kernelGenesis]⟩ kernelIndex
        ([kernelFork].reverse ++ [kernelA, kernelGenesis]) kernelA.hashBlock false 0 =
      if [kernelFork].reverse ++ [kernelA, kernelGenesis] <:+ [kernelA, kernelGenesis] then
        let up := ([kernelA, kernelGenesis].take
          ([kernelA, kernelGenesis].length - ([kernelGenesis].length + 1))).reverse
        match up.find? (isLate (kernelA.nTime + getStakeModifierSelectionInterval mainParams)) with
        | some c => .ok (c.nStakeModifier, c.nHeight, c.nTime)
        | none => .error (reachedBestBlock mainParams false 0
            (getStakeModifierSelectionInterval mainParams) (up.getLastD kernelA))
      else
        match [kernelFork].find?
            (isLate (kernelA.nTime + getStakeModifierSelectionInterval mainParams)) with
        | some c => .ok (c.nStakeModifier, c.nHeight, c.nTime)
        | none => .error (.undefined "tmpChain[n] with n >= tmpChain.size()") :=
  ⟨by decide, by decide, rfl,
    getKernelStakeModifierV03_eq mainParams ⟨[kernelA, kernelGenesis]⟩ kernelIndex false 0
      (by decide) (by decide) rfl⟩

end Result

end Emrals
