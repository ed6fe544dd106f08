import EmralsConsensus.Tx.Check
import Mathlib.Algebra.Order.BigOperators.Group.List
import Mathlib.Algebra.Order.Ring.Int

/-!
# What `CheckTransaction` guarantees

* The output-value loop, when `2 * MAX_MONEY ≤ INT64_MAX`: from a running total in
  `[0, MAX_MONEY]` it passes exactly when every value is in range and the exact sum stays in
  range (`foldlM_checkOutputValue_eq_ok`), and it is never undefined
  (`foldlM_checkOutputValue_ne_undefined`). **`checkTransaction_outputValues`**: the total is in
  `[0, MAX_MONEY]` at the start of every iteration, the loop never overflows, and an accepted
  transaction has every output and its total in range.
* **`checkTransaction_duplicateInputs`**: the duplicate check changes nothing when the prevouts
  are distinct, and otherwise rejects with `bad-txns-inputs-duplicate` once the earlier checks
  pass.
* One acceptance lemma and one failure lemma per stage (`checkTxBasics_eq_ok`,
  `checkTxBasics_eq_error`, `foldlM_checkOutputValue_eq_error`, `checkTxInputs_eq_ok`, ...).
  `TxAccepted`: every check of the source as a field. **`checkTransaction_eq_ok_iff`**:
  `CheckTransaction` accepts exactly the transactions of `TxAccepted`;
  **`checkTransaction_eq_error`**: it fails only with one of its twelve reasons.
-/

namespace Emrals

section Outputs

variable (ctx : TxCheckContext)

theorem int64Range_of_le {a : Int} (h0 : 0 ≤ a) (h : a ≤ INT64_MAX) : Int64Range a :=
  ⟨le_trans (by decide) h0, h⟩

theorem int64Range_add (hM : 2 * ctx.MAX_MONEY ≤ INT64_MAX) {acc : Int} (h0 : 0 ≤ acc)
    (h1 : acc ≤ ctx.MAX_MONEY) : ∀ v : Int, 0 ≤ v → v ≤ ctx.MAX_MONEY → Int64Range (acc + v) :=
  fun _ _ _ => int64Range_of_le (by omega) (by omega)

theorem sum_nonneg_of_inRange {vout : List CTxOut}
    (h : ∀ o ∈ vout, 0 ≤ o.nValue ∧ o.nValue ≤ ctx.MAX_MONEY) :
    0 ≤ (vout.map CTxOut.nValue).sum :=
  List.sum_nonneg fun _ hx => by
    obtain ⟨o, ho, rfl⟩ := List.mem_map.mp hx
    exact (h o ho).1

theorem foldlM_checkOutputValue_eq_ok (hM : 2 * ctx.MAX_MONEY ≤ INT64_MAX) (vout : List CTxOut)
    {acc r : Int} (h0 : 0 ≤ acc) (h1 : acc ≤ ctx.MAX_MONEY) :
    vout.foldlM (checkOutputValue ctx) acc = .ok r ↔
      (∀ o ∈ vout, 0 ≤ o.nValue ∧ o.nValue ≤ ctx.MAX_MONEY) ∧
        acc + (vout.map CTxOut.nValue).sum ≤ ctx.MAX_MONEY ∧
        r = acc + (vout.map CTxOut.nValue).sum := by
  induction vout generalizing acc with
  | nil =>
    simp only [List.foldlM_nil, List.not_mem_nil, List.map_nil, List.sum_nil, add_zero]
    exact ⟨fun h => ⟨fun _ h => h.elim, h1, (Except.ok.inj h).symm⟩, fun h => h.2.2 ▸ rfl⟩
  | cons o vout ih =>
    simp only [List.foldlM_cons, bind_eq_ok,
      checkOutputValue_eq_ok ctx (int64Range_add ctx hM h0 h1),
      List.forall_mem_cons, List.map_cons, List.sum_cons]
    constructor
    · rintro ⟨a, ⟨hv0, hv1, ha0, ha1, rfl⟩, hrest⟩
      obtain ⟨hall, hle, rfl⟩ := (ih ha0 ha1).mp hrest
      exact ⟨⟨⟨hv0, hv1⟩, hall⟩, by omega, by omega⟩
    · rintro ⟨⟨⟨hv0, hv1⟩, hall⟩, hle, rfl⟩
      have := sum_nonneg_of_inRange ctx hall
      exact ⟨acc + o.nValue, ⟨hv0, hv1, by omega, by omega, rfl⟩,
        (ih (by omega) (by omega)).mpr ⟨hall, by omega, by omega⟩⟩

theorem foldlM_checkOutputValue_ne_undefined (hM : 2 * ctx.MAX_MONEY ≤ INT64_MAX)
    (vout : List CTxOut) {acc : Int} (h0 : 0 ≤ acc) (h1 : acc ≤ ctx.MAX_MONEY) (w : String) :
    vout.foldlM (checkOutputValue ctx) acc ≠ .error (.undefined w) := by
  induction vout generalizing acc with
  | nil => intro h; cases h
  | cons o vout ih =>
    have hInt := int64Range_add ctx hM h0 h1
    rw [List.foldlM_cons]
    cases hstep : checkOutputValue ctx acc o with
    | error e =>
      intro h
      cases h
      exact checkOutputValue_ne_undefined ctx hInt hstep
    | ok a =>
      obtain ⟨-, -, ha0, ha1, rfl⟩ := (checkOutputValue_eq_ok ctx hInt).mp hstep
      exact ih ha0 ha1

/-- **`CheckTransaction`'s output-value loop.** With `2 * MAX_MONEY ≤ INT64_MAX`: the running
total is in `[0, MAX_MONEY]` at the start of every iteration (after any prefix the loop has
passed); the loop is never undefined; it passes exactly when every output value is in
`[0, MAX_MONEY]` and the exact sum is at most `MAX_MONEY`; and for either value of
`fCheckDuplicateInputs` an accepted transaction has every output and its total in range. -/
theorem checkTransaction_outputValues (hM : 2 * ctx.MAX_MONEY ≤ INT64_MAX) (tx : CTransaction) :
    (∀ k nValueOut, (tx.vout.take k).foldlM (checkOutputValue ctx) 0 = .ok nValueOut →
      0 ≤ nValueOut ∧ nValueOut ≤ ctx.MAX_MONEY) ∧
    (∀ w, checkOutputValues ctx tx.vout ≠ .error (.undefined w)) ∧
    ((∃ r, checkOutputValues ctx tx.vout = .ok r) ↔
      (∀ o ∈ tx.vout, 0 ≤ o.nValue ∧ o.nValue ≤ ctx.MAX_MONEY) ∧
        (tx.vout.map CTxOut.nValue).sum ≤ ctx.MAX_MONEY) ∧
    (∀ f, checkTransaction ctx tx f = .ok () →
      (∀ o ∈ tx.vout, 0 ≤ o.nValue ∧ o.nValue ≤ ctx.MAX_MONEY) ∧
        0 ≤ (tx.vout.map CTxOut.nValue).sum ∧ (tx.vout.map CTxOut.nValue).sum ≤ ctx.MAX_MONEY) := by
  have hloop := fun (vout : List CTxOut) (r : Int) =>
    foldlM_checkOutputValue_eq_ok ctx hM vout (r := r) le_rfl (Int.ofNat_nonneg _)
  simp only [zero_add] at hloop
  refine ⟨fun k acc h => ?_, foldlM_checkOutputValue_ne_undefined ctx hM _ le_rfl
    (Int.ofNat_nonneg _), ⟨fun ⟨r, h⟩ => ?_, fun h => ⟨_, (hloop _ _).mpr ⟨h.1, h.2, rfl⟩⟩⟩,
    fun f h => ?_⟩
  · obtain ⟨hall, hle, rfl⟩ := (hloop _ _).mp h
    exact ⟨sum_nonneg_of_inRange ctx hall, hle⟩
  · exact ((hloop _ _).mp h).imp_right And.left
  · rw [checkTransaction_eq] at h
    obtain ⟨-, -, r, hr, -⟩ : ∃ u, checkTxBasics ctx tx = .ok u ∧ ∃ r,
        checkOutputValues ctx tx.vout = .ok r ∧ _ := by simpa only [bind_eq_ok] using h
    obtain ⟨hall, hle, -⟩ := (hloop _ _).mp hr
    exact ⟨hall, sum_nonneg_of_inRange ctx hall, hle⟩

/-- A context with a money supply of `21 000 000` coins, and a transaction paying two outputs. -/
def exampleContext : TxCheckContext where
  MAX_MONEY := 2100000000000000
  MAX_BLOCK_WEIGHT := 4000000
  WITNESS_SCALE_FACTOR := 4
  MAX_TX_EXTRA_PAYLOAD := 10000
  IsNull o := o.hash == 0 && o.n == 4294967295
  IsCoinBase tx := tx.vin.length == 1 && tx.vin.all fun i => i.prevout.hash == 0
  GetSerializeSize _ := 250

/-- A version-2 payment with two outputs. -/
def examplePayment : CTransaction :=
  ⟨2, .normal, [⟨⟨7, 0⟩, []⟩, ⟨⟨7, 1⟩, []⟩], [⟨5 * COIN⟩, ⟨2100000000000000 - 5 * COIN⟩], []⟩

theorem checkTransaction_outputValues_examplePayment :
    2 * exampleContext.MAX_MONEY ≤ INT64_MAX ∧
    ((∀ k nValueOut, (examplePayment.vout.take k).foldlM (checkOutputValue exampleContext) 0 =
        .ok nValueOut → 0 ≤ nValueOut ∧ nValueOut ≤ exampleContext.MAX_MONEY) ∧
      (∀ w, checkOutputValues exampleContext examplePayment.vout ≠ .error (.undefined w)) ∧
      ((∃ r, checkOutputValues exampleContext examplePayment.vout = .ok r) ↔
        (∀ o ∈ examplePayment.vout, 0 ≤ o.nValue ∧ o.nValue ≤ exampleContext.MAX_MONEY) ∧
          (examplePayment.vout.map CTxOut.nValue).sum ≤ exampleContext.MAX_MONEY) ∧
      (∀ f, checkTransaction exampleContext examplePayment f = .ok () →
        (∀ o ∈ examplePayment.vout, 0 ≤ o.nValue ∧ o.nValue ≤ exampleContext.MAX_MONEY) ∧
          0 ≤ (examplePayment.vout.map CTxOut.nValue).sum ∧
          (examplePayment.vout.map CTxOut.nValue).sum ≤ exampleContext.MAX_MONEY)) :=
  ⟨by decide, checkTransaction_outputValues exampleContext (by decide) examplePayment⟩

example : checkTransaction exampleContext examplePayment true = .ok () := by decide

end Outputs

section Inputs

variable (ctx : TxCheckContext)

/-- **The duplicate-input check.** With pairwise-distinct prevouts, `CheckTransaction` gives the
same verdict and reason with `fCheckDuplicateInputs` true and false; with a repeated prevout and
the earlier checks passed, it rejects with `bad-txns-inputs-duplicate` when the flag is true. -/
theorem checkTransaction_duplicateInputs (tx : CTransaction) :
    ((tx.vin.map CTxIn.prevout).Nodup →
      checkTransaction ctx tx true = checkTransaction ctx tx false) ∧
    (¬ (tx.vin.map CTxIn.prevout).Nodup → checkTxBasics ctx tx = .ok () →
      (∃ r, checkOutputValues ctx tx.vout = .ok r) →
      checkTransaction ctx tx true = .error (.reject "bad-txns-inputs-duplicate")) := by
  refine ⟨fun h => ?_, fun h hb ⟨r, hr⟩ => ?_⟩
  · simp only [checkTransaction_eq, (checkDuplicateInputs_eq_ok_iff _).mpr h, if_true]
    rfl
  · cases hd : checkDuplicateInputs tx.vin with
    | ok u => exact absurd ((checkDuplicateInputs_eq_ok_iff _).mp hd) h
    | error e =>
      rw [checkDuplicateInputsFrom_eq_error [] tx.vin hd] at hd
      simp only [checkTransaction_eq, hb, hr, ok_bind, if_true, hd, error_bind]

end Inputs

/-! ## What `CheckTransaction` accepts, and how it fails -/

section Accept

variable (ctx : TxCheckContext)

theorem checkTxBasics_eq_ok (tx : CTransaction) {u : Unit} :
    checkTxBasics ctx tx = .ok u ↔
      (allowEmptyTxInOut tx = false → tx.vin ≠ []) ∧ (allowEmptyTxInOut tx = false → tx.vout ≠ []) ∧
      ctx.GetSerializeSize tx * ctx.WITNESS_SCALE_FACTOR ≤ ctx.MAX_BLOCK_WEIGHT ∧
      tx.vExtraPayload.length ≤ ctx.MAX_TX_EXTRA_PAYLOAD ∧
      (2 ≤ tx.nVersion → tx.nType.isListed = true) ∧
      (ctx.IsCoinBase tx = true → 2 ≤ tx.nVersion → tx.nType = .coinbase) := by
  simp only [checkTxBasics, ite_error_eq_ok, Bool.and_eq_true, Bool.not_eq_true', List.isEmpty_iff,
    decide_eq_true_eq, not_and, not_lt, bne_iff_ne, ne_eq, not_not, gt_iff_lt, ge_iff_le,
    Bool.not_eq_false, and_imp, and_true]

theorem checkTxBasics_eq_error {tx : CTransaction} {e : Failure}
    (h : checkTxBasics ctx tx = .error e) :
    e = .reject "bad-txns-vin-empty" ∨ e = .reject "bad-txns-vout-empty" ∨
      e = .reject "bad-txns-oversize" ∨ e = .reject "bad-txns-payload-oversize" ∨
      e = .reject "bad-txns-type" ∨ e = .reject "bad-txns-cb-type" := by
  unfold checkTxBasics at h
  rcases ite_error_eq_error.mp h with ⟨-, rfl⟩ | ⟨-, h⟩
  · exact .inl rfl
  rcases ite_error_eq_error.mp h with ⟨-, rfl⟩ | ⟨-, h⟩
  · exact .inr (.inl rfl)
  rcases ite_error_eq_error.mp h with ⟨-, rfl⟩ | ⟨-, h⟩
  · exact .inr (.inr (.inl rfl))
  rcases ite_error_eq_error.mp h with ⟨-, rfl⟩ | ⟨-, h⟩
  · exact .inr (.inr (.inr (.inl rfl)))
  rcases ite_error_eq_error.mp h with ⟨-, rfl⟩ | ⟨-, h⟩
  · exact .inr (.inr (.inr (.inr (.inl rfl))))
  rcases ite_error_eq_error.mp h with ⟨-, rfl⟩ | ⟨-, h⟩
  · exact .inr (.inr (.inr (.inr (.inr rfl))))
  · cases h

theorem checkOutputValue_eq_error {nValueOut : Int} {txout : CTxOut} {e : Failure}
    (h : checkOutputValue ctx nValueOut txout = .error e) :
    e = .reject "bad-txns-vout-negative" ∨ e = .reject "bad-txns-vout-toolarge" ∨
      e = .reject "bad-txns-txouttotal-toolarge" ∨ e = .undefined "signed overflow in +" := by
  unfold checkOutputValue int64Add at h
  split at h
  · cases h; simp
  split at h
  · cases h; simp
  split at h
  · simp only [ok_bind] at h
    split at h
    · cases h
    · cases h; simp
  · cases h; simp

theorem foldlM_checkOutputValue_eq_error :
    ∀ (vout : List CTxOut) (acc : Int) {e : Failure},
      vout.foldlM (checkOutputValue ctx) acc = .error e →
      e = .reject "bad-txns-vout-negative" ∨ e = .reject "bad-txns-vout-toolarge" ∨
        e = .reject "bad-txns-txouttotal-toolarge" ∨ e = .undefined "signed overflow in +"
  | [], _, _, h => nomatch h
  | o :: vout, acc, _, h => by
    rw [List.foldlM_cons] at h
    rcases hs : checkOutputValue ctx acc o with e' | a
    · simp only [hs, error_bind, Except.error.injEq] at h
      exact h ▸ checkOutputValue_eq_error ctx hs
    · simp only [hs, ok_bind] at h
      exact foldlM_checkOutputValue_eq_error vout a h

theorem checkDuplicates_eq_ok (vin : List CTxIn) (f : Bool) {u : Unit} :
    (if f then checkDuplicateInputs vin else .ok ()) = .ok u ↔
      (f = true → (vin.map CTxIn.prevout).Nodup) := by
  cases u
  cases f <;> simp [checkDuplicateInputs_eq_ok_iff]

theorem checkTxInputs_eq_ok (tx : CTransaction) {u : Unit} :
    checkTxInputs ctx tx = .ok u ↔
      (ctx.IsCoinBase tx = true → ∃ txin rest, tx.vin = txin :: rest ∧
        1 ≤ txin.scriptSig.length ∧ txin.scriptSig.length ≤ 100) ∧
      (ctx.IsCoinBase tx = false → ∀ txin ∈ tx.vin, ctx.IsNull txin.prevout = false) := by
  unfold checkTxInputs
  cases ctx.IsCoinBase tx
  · simp
  · rcases tx.vin with _ | ⟨txin, rest⟩ <;> simp [Nat.one_le_iff_ne_zero]

theorem checkTxInputs_eq_error {tx : CTransaction} (hcb : ctx.IsCoinBase tx = true → tx.vin ≠ [])
    {e : Failure} (h : checkTxInputs ctx tx = .error e) :
    e = .reject "bad-cb-length" ∨ e = .reject "bad-txns-prevout-null" := by
  unfold checkTxInputs at h
  split at h
  · split at h
    · split at h
      · cases h; simp
      · cases h
    · exact absurd ‹tx.vin = []› (hcb ‹_›)
  · split at h
    · cases h; simp
    · cases h

/-- What `CheckTransaction` accepts, stated without its loops: one field for each check, in the
source's order. -/
structure TxAccepted (tx : CTransaction) (fCheckDuplicateInputs : Bool) : Prop where
  vin_ne_nil : allowEmptyTxInOut tx = false → tx.vin ≠ []
  vout_ne_nil : allowEmptyTxInOut tx = false → tx.vout ≠ []
  size_le : ctx.GetSerializeSize tx * ctx.WITNESS_SCALE_FACTOR ≤ ctx.MAX_BLOCK_WEIGHT
  payload_le : tx.vExtraPayload.length ≤ ctx.MAX_TX_EXTRA_PAYLOAD
  type_listed : 2 ≤ tx.nVersion → tx.nType.isListed = true
  coinbase_type : ctx.IsCoinBase tx = true → 2 ≤ tx.nVersion → tx.nType = .coinbase
  values_inRange : ∀ o ∈ tx.vout, 0 ≤ o.nValue ∧ o.nValue ≤ ctx.MAX_MONEY
  sum_le : (tx.vout.map CTxOut.nValue).sum ≤ ctx.MAX_MONEY
  prevouts_nodup : fCheckDuplicateInputs = true → (tx.vin.map CTxIn.prevout).Nodup
  coinbase_script : ctx.IsCoinBase tx = true → ∃ txin rest, tx.vin = txin :: rest ∧
    1 ≤ txin.scriptSig.length ∧ txin.scriptSig.length ≤ 100
  prevouts_notNull : ctx.IsCoinBase tx = false → ∀ txin ∈ tx.vin, ctx.IsNull txin.prevout = false

/-- **What `CheckTransaction` accepts.** With `2 * MAX_MONEY ≤ INT64_MAX`, a transaction passes
exactly when it has inputs and outputs (unless it is a quorum commitment), fits the size limits,
has a listed type (and the coinbase type if it is a version-2 coinbase), has every output value in
`[0, MAX_MONEY]` and their sum at most `MAX_MONEY`, has distinct prevouts when they are checked,
and has a coinbase script of `1` to `100` bytes, or no null prevout. -/
theorem checkTransaction_eq_ok_iff (hM : 2 * ctx.MAX_MONEY ≤ INT64_MAX) (tx : CTransaction)
    (f : Bool) : checkTransaction ctx tx f = .ok () ↔ TxAccepted ctx tx f := by
  have hloop := fun r => foldlM_checkOutputValue_eq_ok ctx hM tx.vout (r := r) (le_refl (0 : Int))
    (Int.ofNat_nonneg _)
  simp only [zero_add] at hloop
  rw [checkTransaction_eq]
  constructor
  · intro h
    obtain ⟨_, hb, _, ho, _, hd, hi⟩ : ∃ a, checkTxBasics ctx tx = .ok a ∧ ∃ r,
        checkOutputValues ctx tx.vout = .ok r ∧ ∃ u,
          (if f then checkDuplicateInputs tx.vin else .ok ()) = .ok u ∧
            checkTxInputs ctx tx = .ok () := by
      simpa only [bind_eq_ok] using h
    obtain ⟨h1, h2, h3, h4, h5, h6⟩ := (checkTxBasics_eq_ok ctx tx).mp hb
    obtain ⟨hv, hs, -⟩ := (hloop _).mp ho
    obtain ⟨hc, hn⟩ := (checkTxInputs_eq_ok ctx tx).mp hi
    exact ⟨h1, h2, h3, h4, h5, h6, hv, hs, (checkDuplicates_eq_ok tx.vin f).mp hd, hc, hn⟩
  · intro h
    rw [(checkTxBasics_eq_ok ctx tx (u := ())).mpr ⟨h.1, h.2, h.3, h.4, h.5, h.6⟩, ok_bind,
      checkOutputValues, (hloop _).mpr ⟨h.7, h.8, rfl⟩, ok_bind,
      (checkDuplicates_eq_ok tx.vin f (u := ())).mpr h.9, ok_bind]
    exact (checkTxInputs_eq_ok ctx tx).mpr ⟨h.10, h.11⟩

theorem checkTransaction_eq_ok_iff_examplePayment :
    2 * exampleContext.MAX_MONEY ≤ INT64_MAX ∧
    (checkTransaction exampleContext examplePayment true = .ok () ↔
      TxAccepted exampleContext examplePayment true) :=
  ⟨by decide, checkTransaction_eq_ok_iff exampleContext (by decide) examplePayment true⟩

/-- **`CheckTransaction` fails only by rejecting.** With `2 * MAX_MONEY ≤ INT64_MAX`, and a
coinbase having an input (as `IsCoinBase` requires), every failure of `CheckTransaction` is a
`state.Invalid` with one of its twelve reasons: no overflow and no out-of-range read. -/
theorem checkTransaction_eq_error (hM : 2 * ctx.MAX_MONEY ≤ INT64_MAX) {tx : CTransaction}
    (hcb : ctx.IsCoinBase tx = true → tx.vin ≠ []) {f : Bool} {e : Failure}
    (h : checkTransaction ctx tx f = .error e) :
    ∃ reason ∈ ["bad-txns-vin-empty", "bad-txns-vout-empty", "bad-txns-oversize",
      "bad-txns-payload-oversize", "bad-txns-type", "bad-txns-cb-type", "bad-txns-vout-negative",
      "bad-txns-vout-toolarge", "bad-txns-txouttotal-toolarge", "bad-txns-inputs-duplicate",
      "bad-cb-length", "bad-txns-prevout-null"], e = .reject reason := by
  rw [checkTransaction_eq] at h
  rcases bind_eq_error.mp h with hb | ⟨_, -, h⟩
  · rcases checkTxBasics_eq_error ctx hb with rfl | rfl | rfl | rfl | rfl | rfl <;>
      exact ⟨_, by simp only [List.mem_cons, true_or, or_true], rfl⟩
  rcases bind_eq_error.mp h with ho | ⟨_, -, h⟩
  · rcases foldlM_checkOutputValue_eq_error ctx tx.vout 0 ho with rfl | rfl | rfl | rfl
    iterate 3 exact ⟨_, by simp only [List.mem_cons, true_or, or_true], rfl⟩
    exact absurd ho (foldlM_checkOutputValue_ne_undefined ctx hM _ le_rfl (Int.ofNat_nonneg _) _)
  rcases bind_eq_error.mp h with hd | ⟨_, -, hi⟩
  · cases f
    · cases hd
    · rw [checkDuplicateInputsFrom_eq_error [] tx.vin hd]
      exact ⟨_, by simp only [List.mem_cons, true_or, or_true], rfl⟩
  · rcases checkTxInputs_eq_error ctx hcb hi with rfl | rfl <;>
      exact ⟨_, by simp only [List.mem_cons, true_or, or_true], rfl⟩

/-- A payment with a negative output. -/
def exampleNegative : CTransaction := ⟨2, .normal, [⟨⟨7, 0⟩, []⟩], [⟨-1⟩], []⟩

theorem checkTransaction_eq_error_exampleNegative :
    2 * exampleContext.MAX_MONEY ≤ INT64_MAX ∧
    (exampleContext.IsCoinBase exampleNegative = true → exampleNegative.vin ≠ []) ∧
    checkTransaction exampleContext exampleNegative true =
      .error (.reject "bad-txns-vout-negative") ∧
    ∃ reason ∈ ["bad-txns-vin-empty", "bad-txns-vout-empty", "bad-txns-oversize",
      "bad-txns-payload-oversize", "bad-txns-type", "bad-txns-cb-type", "bad-txns-vout-negative",
      "bad-txns-vout-toolarge", "bad-txns-txouttotal-toolarge", "bad-txns-inputs-duplicate",
      "bad-cb-length", "bad-txns-prevout-null"], Failure.reject "bad-txns-vout-negative" = .reject reason :=
  ⟨by decide, by decide, by decide,
    checkTransaction_eq_error exampleContext (by decide) (by decide)
      (by decide : checkTransaction exampleContext exampleNegative true = .error _)⟩

end Accept

end Emrals
