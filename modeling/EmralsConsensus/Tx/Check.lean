import EmralsConsensus.Basic

/-!
# `CheckTransaction` (consensus/tx_check.cpp)

* The transaction data `CheckTransaction` reads: `COutPoint`, `CTxIn`, `CTxOut`, `CTransaction`,
  and the type codes `TxType`.
* `TxCheckContext`: the limits, predicates and serializer it uses that are declared outside src/.
* `checkTransaction`: the source's checks in order, in four stages named after its comments:
  `checkTxBasics` (empty vectors, size limits, transaction types), `checkOutputValues` (the
  output-value loop), `checkDuplicateInputs` (the `std::set` loop) and `checkTxInputs` (coinbase
  script length, null prevouts). Each rejection carries the source's reason text.
* One lemma per stage: `checkOutputValue_eq_ok`, `checkDuplicateInputs_eq_ok_iff`, and the
  composition `checkTransaction_eq`.
-/

namespace Emrals

/-- `COutPoint`: a transaction hash and an output index. -/
structure COutPoint where
  hash : Nat
  n : Nat
  deriving DecidableEq, Repr

/-- `CTxIn`, with the fields `CheckTransaction` reads. -/
structure CTxIn where
  prevout : COutPoint
  scriptSig : List UInt8
  deriving DecidableEq, Repr

/-- `CTxOut`, with the field `CheckTransaction` reads. -/
structure CTxOut where
  nValue : Int
  deriving DecidableEq, Repr

/-- Modelled from the spec: the codes of `CTransaction::nType` are declared outside src/. The
constructors are the types of the spec's data model, which `CheckTransaction` compares against,
and `other` is any further code. -/
inductive TxType where
  | normal
  | coinbase
  | providerRegister
  | providerUpdateService
  | providerUpdateRevoke
  | quorumCommitment
  | stake
  | other (code : Int)
  deriving DecidableEq, Repr

/-- `CTransaction`, with the fields `CheckTransaction` reads. -/
structure CTransaction where
  nVersion : Int
  nType : TxType
  vin : List CTxIn
  vout : List CTxOut
  vExtraPayload : List UInt8
  deriving DecidableEq, Repr

/-- What `CheckTransaction` uses that is declared outside src/: `MAX_MONEY`, the size limits,
`COutPoint::IsNull`, `CTransaction::IsCoinBase` and `GetSerializeSize` without witness. -/
structure TxCheckContext where
  MAX_MONEY : Nat
  MAX_BLOCK_WEIGHT : Nat
  WITNESS_SCALE_FACTOR : Nat
  MAX_TX_EXTRA_PAYLOAD : Nat
  IsNull : COutPoint → Bool
  IsCoinBase : CTransaction → Bool
  GetSerializeSize : CTransaction → Nat

/-- Modelled from the spec: `MoneyRange` (amount.h), "amounts are in the closed interval
`[0, MAX_MONEY]`". -/
def MoneyRange (MAX_MONEY : Nat) (nValue : Int) : Bool := 0 ≤ nValue && nValue ≤ MAX_MONEY

section Check

variable (ctx : TxCheckContext)

/-- `TRANSACTION_QUORUM_COMMITMENT` may have no inputs and no outputs. -/
def allowEmptyTxInOut (tx : CTransaction) : Bool := tx.nType == .quorumCommitment

/-- The type check: a version-2 transaction must carry one of the seven listed types. -/
def TxType.isListed : TxType → Bool
  | .other _ => false
  | _ => true

/-- The checks before the output loop: empty vectors, size limits, transaction types. -/
def checkTxBasics (tx : CTransaction) : Except Failure Unit :=
  if !allowEmptyTxInOut tx && tx.vin.isEmpty then .error (.reject "bad-txns-vin-empty")
  else if !allowEmptyTxInOut tx && tx.vout.isEmpty then .error (.reject "bad-txns-vout-empty")
  else if ctx.GetSerializeSize tx * ctx.WITNESS_SCALE_FACTOR > ctx.MAX_BLOCK_WEIGHT then
    .error (.reject "bad-txns-oversize")
  else if tx.vExtraPayload.length > ctx.MAX_TX_EXTRA_PAYLOAD then
    .error (.reject "bad-txns-payload-oversize")
  else if tx.nVersion ≥ 2 && !tx.nType.isListed then .error (.reject "bad-txns-type")
  else if ctx.IsCoinBase tx && tx.nVersion ≥ 2 && tx.nType != .coinbase then
    .error (.reject "bad-txns-cb-type")
  else .ok ()

/-- One pass of the output-value loop: `nValueOut` is the running total. -/
def checkOutputValue (nValueOut : Int) (txout : CTxOut) : Except Failure Int :=
  if txout.nValue < 0 then .error (.reject "bad-txns-vout-negative")
  else if txout.nValue > ctx.MAX_MONEY then .error (.reject "bad-txns-vout-toolarge")
  else do
    let nValueOut ← int64Add nValueOut txout.nValue
    if MoneyRange ctx.MAX_MONEY nValueOut then .ok nValueOut
    else .error (.reject "bad-txns-txouttotal-toolarge")

/-- The output-value loop, from `nValueOut = 0`. -/
def checkOutputValues (vout : List CTxOut) : Except Failure Int :=
  vout.foldlM (checkOutputValue ctx) 0

/-- The duplicate-input loop: `vInOutPoints` holds the prevouts inserted so far, and a failed
`insert` rejects. -/
def checkDuplicateInputsFrom (vInOutPoints : List COutPoint) : List CTxIn → Except Failure Unit
  | [] => .ok ()
  | txin :: vin =>
    if txin.prevout ∈ vInOutPoints then .error (.reject "bad-txns-inputs-duplicate")
    else checkDuplicateInputsFrom (txin.prevout :: vInOutPoints) vin

/-- The duplicate-input check, from an empty `std::set<COutPoint>`. -/
def checkDuplicateInputs (vin : List CTxIn) : Except Failure Unit :=
  checkDuplicateInputsFrom [] vin

/-- The last checks: the coinbase script length, or no null prevout. -/
def checkTxInputs (tx : CTransaction) : Except Failure Unit :=
  if ctx.IsCoinBase tx then
    match tx.vin with
    | txin :: _ =>
      if txin.scriptSig.length < 1 || txin.scriptSig.length > 100 then
        .error (.reject "bad-cb-length")
      else .ok ()
    | [] => .error (.undefined "tx.vin[0] out of range")
  else if tx.vin.any (fun txin => ctx.IsNull txin.prevout) then
    .error (.reject "bad-txns-prevout-null")
  else .ok ()

/-- `CheckTransaction(tx, state, fCheckDuplicateInputs)`; the error is the reject reason. -/
def checkTransaction (tx : CTransaction) (fCheckDuplicateInputs : Bool) :
    Except Failure Unit := do
  checkTxBasics ctx tx
  let _ ← checkOutputValues ctx tx.vout
  if fCheckDuplicateInputs then checkDuplicateInputs tx.vin
  checkTxInputs ctx tx

/-! ## One lemma per stage -/

theorem checkOutputValue_eq_ok {nValueOut : Int} {txout : CTxOut} {r : Int}
    (hInt : ∀ v : Int, 0 ≤ v → v ≤ ctx.MAX_MONEY → Int64Range (nValueOut + v)) :
    checkOutputValue ctx nValueOut txout = .ok r ↔
      0 ≤ txout.nValue ∧ txout.nValue ≤ ctx.MAX_MONEY ∧ 0 ≤ nValueOut + txout.nValue ∧
        nValueOut + txout.nValue ≤ ctx.MAX_MONEY ∧ r = nValueOut + txout.nValue := by
  unfold checkOutputValue
  split
  · simp only [reduceCtorEq, false_iff]; omega
  split
  · simp only [reduceCtorEq, false_iff]; omega
  rw [int64Add_of_range (hInt _ (by omega) (by omega)), ok_bind]
  simp only [MoneyRange, Bool.and_eq_true, decide_eq_true_eq]
  split
  · simp only [Except.ok.injEq]; omega
  · simp only [reduceCtorEq, false_iff]; omega

theorem checkOutputValue_ne_undefined {nValueOut : Int} {txout : CTxOut} {w : String}
    (hInt : ∀ v : Int, 0 ≤ v → v ≤ ctx.MAX_MONEY → Int64Range (nValueOut + v)) :
    checkOutputValue ctx nValueOut txout ≠ .error (.undefined w) := by
  unfold checkOutputValue
  split
  · simp
  split
  · simp
  rw [int64Add_of_range (hInt _ (by omega) (by omega)), ok_bind]
  split <;> simp

theorem checkDuplicateInputsFrom_eq_ok_iff (seen : List COutPoint) (vin : List CTxIn) :
    checkDuplicateInputsFrom seen vin = .ok () ↔
      (vin.map CTxIn.prevout).Nodup ∧ ∀ o ∈ vin.map CTxIn.prevout, o ∉ seen := by
  induction vin generalizing seen with
  | nil => simp [checkDuplicateInputsFrom]
  | cons txin vin ih =>
    by_cases hm : txin.prevout ∈ seen
    · rw [checkDuplicateInputsFrom, if_pos hm]
      exact ⟨nofun, fun ⟨_, hs⟩ => (hs _ (List.mem_cons_self _ _) hm).elim⟩
    · rw [checkDuplicateInputsFrom, if_neg hm, ih, List.map_cons, List.nodup_cons,
        List.forall_mem_cons]
      simp only [List.mem_cons, not_or]
      constructor
      · rintro ⟨hnd, hs⟩
        exact ⟨⟨fun h => (hs _ h).1 rfl, hnd⟩, hm, fun o ho => (hs o ho).2⟩
      · rintro ⟨⟨hn, hnd⟩, -, hs⟩
        exact ⟨hnd, fun o ho => ⟨fun h => hn (h ▸ ho), hs o ho⟩⟩

theorem checkDuplicateInputs_eq_ok_iff (vin : List CTxIn) :
    checkDuplicateInputs vin = .ok () ↔ (vin.map CTxIn.prevout).Nodup := by
  simp [checkDuplicateInputs, checkDuplicateInputsFrom_eq_ok_iff]

theorem checkDuplicateInputsFrom_eq_error (seen : List COutPoint) (vin : List CTxIn)
    {e : Failure} (h : checkDuplicateInputsFrom seen vin = .error e) :
    e = .reject "bad-txns-inputs-duplicate" := by
  induction vin generalizing seen with
  | nil => cases h
  | cons txin vin ih =>
    unfold checkDuplicateInputsFrom at h
    split at h
    · cases h; rfl
    · exact ih _ h

theorem checkTransaction_eq (tx : CTransaction) (f : Bool) :
    checkTransaction ctx tx f =
      (checkTxBasics ctx tx >>= fun _ => checkOutputValues ctx tx.vout >>= fun _ =>
        (if f then checkDuplicateInputs tx.vin else .ok ()) >>= fun _ => checkTxInputs ctx tx) := by
  unfold checkTransaction
  cases f <;> rfl

end Check

end Emrals
