import EmralsConsensus.ChainParams
import Mathlib.Data.List.Basic

/-!
# Regtest's `-vbparams`: the deployment parser of chainparams.cpp

`CRegTestParams::UpdateVersionBitsParametersFromArgs` reads each `-vbparams` value as
`deployment:start:end`, split at every colon, and sets that deployment's start time and timeout;
anything else throws.

* `updateVersionBitsParameter`: one value, with its three `runtime_error`s. The deployment names
  (`VersionBitsDeploymentInfo`) and `ParseInt64` are parameters: neither is under src/.
* `not_mem_of_mem_splitOn`, `length_splitOn`: the fields of `boost::split` have no separator, and
  there is one more of them than separators.
* `updateVersionBitsParameter_ok_cases`, **`updateVersionBitsParameter_eq_ok_iff`**: the values
  accepted are exactly
  `name:start:end` with no colon in the three fields, a deployment's name and two parsed times;
  the first deployment of that name gets them. **`updateVersionBitsParameter_malformed`**: a value
  without exactly two colons throws the malformed-parameters error.
* `updateVersionBitsParametersFromArgs`: the values in order. `length_…` and `…_frame`: the
  table keeps its size, and a deployment that no value names keeps its times; hence
  **`updateVersionBitsParametersFromArgs_eq_ok`**: a deployment changes only when some value
  names it, and **`updateVersionBitsParametersFromArgs_last`**: the last value naming it sets it.
-/

namespace Emrals

theorem not_mem_of_mem_splitOn {α : Type} [DecidableEq α] (c : α) :
    ∀ {xs l : List α}, l ∈ xs.splitOn c → c ∉ l
  | [], l, h => by
    rw [List.splitOn_nil, List.mem_singleton] at h
    simp [h]
  | a :: xs, l, h => by
    have ih := @not_mem_of_mem_splitOn α _ c xs
    simp only [List.splitOn, List.splitOnP_cons] at h
    split_ifs at h with hac
    · rcases List.mem_cons.mp h with rfl | h
      · exact List.not_mem_nil c
      · exact ih h
    · obtain ⟨hd, tl, hs⟩ := List.exists_cons_of_ne_nil (List.splitOnP_ne_nil (· == c) xs)
      rw [hs, List.modifyHead_cons] at h
      rcases List.mem_cons.mp h with rfl | h
      · have hhd : c ∉ hd := ih (by simp only [List.splitOn, hs, List.mem_cons_self])
        simp only [beq_iff_eq] at hac
        simpa [Ne.symm hac] using hhd
      · exact ih (by simp only [List.splitOn, hs, List.mem_cons_of_mem _ h])

theorem length_splitOn {α : Type} [DecidableEq α] (c : α) :
    ∀ xs : List α, (xs.splitOn c).length = xs.count c + 1
  | [] => rfl
  | a :: xs => by
    have ih := length_splitOn c xs
    simp only [List.splitOn] at ih ⊢
    rw [List.splitOnP_cons, List.count_cons]
    split_ifs with hac
    · simp [ih, hac]
    · obtain ⟨hd, tl, hs⟩ := List.exists_cons_of_ne_nil (List.splitOnP_ne_nil (· == c) xs)
      rw [hs, List.modifyHead_cons]
      simp only [hs, List.length_cons] at ih
      simp [ih, hac]

/-- `consensus.vDeployments[d]`: the fields `UpdateVersionBitsParameters` sets. -/
structure BIP9Deployment where
  nStartTime : Int
  nTimeout : Int
  deriving DecidableEq, Repr

section VersionBits

/- `VersionBitsDeploymentInfo[j].name` for `j < MAX_VERSION_BITS_DEPLOYMENTS`, and
`ParseInt64`. -/
variable (deploymentNames : List String) (parseInt64 : String → Option Int)

/-- `UpdateVersionBitsParameters(d, nStartTime, nTimeout)`. -/
def updateVersionBitsParameters (vDeployments : List BIP9Deployment) (d : Nat)
    (nStartTime nTimeout : Int) : List BIP9Deployment :=
  vDeployments.set d ⟨nStartTime, nTimeout⟩

/-- One pass of the loop over `args.GetArgs("-vbparams")`: `boost::split` at every `:`, the
three-field check, `ParseInt64` of the start and of the timeout, and the first deployment with
that name. -/
def updateVersionBitsParameter (vDeployments : List BIP9Deployment) (strDeployment : String) :
    Except Failure (List BIP9Deployment) :=
  match strDeployment.toList.splitOn ':' with
  | [name, start, timeout] =>
    match parseInt64 ⟨start⟩, parseInt64 ⟨timeout⟩ with
    | none, _ => .error (.thrown ("Invalid nStartTime (" ++ ⟨start⟩ ++ ")"))
    | some _, none => .error (.thrown ("Invalid nTimeout (" ++ ⟨timeout⟩ ++ ")"))
    | some nStartTime, some nTimeout =>
      match deploymentNames.indexOf? ⟨name⟩ with
      | some j => .ok (updateVersionBitsParameters vDeployments j nStartTime nTimeout)
      | none => .error (.thrown ("Invalid deployment (" ++ ⟨name⟩ ++ ")"))
  | _ => .error (.thrown "Version bits parameters malformed, expecting deployment:start:end")

/-- `UpdateVersionBitsParametersFromArgs(args)`: the `-vbparams` values in order, none when the
option is not set. -/
def updateVersionBitsParametersFromArgs (vbparams : List String)
    (vDeployments : List BIP9Deployment) : Except Failure (List BIP9Deployment) :=
  vbparams.foldlM (updateVersionBitsParameter deploymentNames parseInt64) vDeployments

theorem intercalate_colon (name start timeout : List Char) :
    [':'].intercalate [name, start, timeout] = name ++ ':' :: start ++ ':' :: timeout := by
  simp [List.intercalate]

theorem updateVersionBitsParameter_ok_cases {vDeployments r : List BIP9Deployment}
    {strDeployment : String}
    (h : updateVersionBitsParameter deploymentNames parseInt64 vDeployments strDeployment = .ok r) :
    ∃ name start timeout : List Char, ':' ∉ name ∧ ':' ∉ start ∧ ':' ∉ timeout ∧
      strDeployment.toList = name ++ ':' :: start ++ ':' :: timeout ∧
      ∃ j nStartTime nTimeout, deploymentNames.indexOf? ⟨name⟩ = some j ∧
        parseInt64 ⟨start⟩ = some nStartTime ∧ parseInt64 ⟨timeout⟩ = some nTimeout ∧
        r = updateVersionBitsParameters vDeployments j nStartTime nTimeout := by
  unfold updateVersionBitsParameter at h
  split at h
  · rename_i name start timeout hs
    have hmem : ∀ l ∈ [name, start, timeout], ':' ∉ l :=
      fun l hl => not_mem_of_mem_splitOn ':' (by rw [hs]; exact hl)
    refine ⟨name, start, timeout, hmem _ (by simp), hmem _ (by simp), hmem _ (by simp), ?_⟩
    refine ⟨by rw [← intercalate_colon, ← hs, List.intercalate_splitOn], ?_⟩
    split at h
    · cases h
    · cases h
    · rename_i nStartTime nTimeout hstart htimeout
      split at h
      · exact ⟨_, nStartTime, nTimeout, by assumption, hstart, htimeout, (Except.ok.inj h).symm⟩
      · cases h
  · cases h

/-- **What `-vbparams` accepts.** A value is accepted exactly when it is `name:start:end` with no
colon in the three fields, `name` a deployment's and both times parsed; the first deployment of
that name gets them. -/
theorem updateVersionBitsParameter_eq_ok_iff {vDeployments r : List BIP9Deployment}
    {strDeployment : String} :
    updateVersionBitsParameter deploymentNames parseInt64 vDeployments strDeployment = .ok r ↔
      ∃ name start timeout : List Char, ':' ∉ name ∧ ':' ∉ start ∧ ':' ∉ timeout ∧
        strDeployment.toList = name ++ ':' :: start ++ ':' :: timeout ∧
        ∃ j nStartTime nTimeout, deploymentNames.indexOf? ⟨name⟩ = some j ∧
          parseInt64 ⟨start⟩ = some nStartTime ∧ parseInt64 ⟨timeout⟩ = some nTimeout ∧
          r = updateVersionBitsParameters vDeployments j nStartTime nTimeout := by
  refine ⟨updateVersionBitsParameter_ok_cases deploymentNames parseInt64, ?_⟩
  rintro ⟨name, start, timeout, hn, hs, ht, hstr, j, nStartTime, nTimeout, hj, hps, hpt, rfl⟩
  have hsplit : strDeployment.toList.splitOn ':' = [name, start, timeout] := by
    rw [hstr, ← intercalate_colon]
    exact List.splitOn_intercalate _ ':' (by simp [hn, hs, ht]) (List.cons_ne_nil _ _)
  simp only [updateVersionBitsParameter, hsplit, hps, hpt, hj]

/-- **A value without exactly two colons** throws the malformed-parameters error. -/
theorem updateVersionBitsParameter_malformed {vDeployments : List BIP9Deployment}
    {strDeployment : String} (h : strDeployment.toList.count ':' ≠ 2) :
    updateVersionBitsParameter deploymentNames parseInt64 vDeployments strDeployment =
      .error (.thrown "Version bits parameters malformed, expecting deployment:start:end") := by
  have hlen := length_splitOn ':' strDeployment.toList
  unfold updateVersionBitsParameter
  split
  · rename_i hs
    rw [hs] at hlen
    simp only [List.length_cons, List.length_nil] at hlen
    omega
  · rfl

theorem length_updateVersionBitsParametersFromArgs :
    ∀ {vbparams : List String} {vDeployments r : List BIP9Deployment},
      updateVersionBitsParametersFromArgs deploymentNames parseInt64 vbparams vDeployments =
        .ok r →
      r.length = vDeployments.length
  | [], _, _, h => by cases h; rfl
  | s :: vbparams, vDeployments, r, h => by
    obtain ⟨mid, hmid, h⟩ := bind_eq_ok.mp h
    obtain ⟨-, -, -, -, -, -, -, k, a, b, -, -, -, rfl⟩ :=
      updateVersionBitsParameter_ok_cases deploymentNames parseInt64 hmid
    rw [length_updateVersionBitsParametersFromArgs h, updateVersionBitsParameters, List.length_set]

theorem updateVersionBitsParametersFromArgs_frame {j : Nat} :
    ∀ {vbparams : List String} {vDeployments r : List BIP9Deployment},
      (∀ s ∈ vbparams, ∀ name rest, ':' ∉ name → s.toList = name ++ ':' :: rest →
        deploymentNames.indexOf? ⟨name⟩ ≠ some j) →
      updateVersionBitsParametersFromArgs deploymentNames parseInt64 vbparams vDeployments =
        .ok r →
      r[j]? = vDeployments[j]?
  | [], _, _, _, h => by cases h; rfl
  | s :: vbparams, vDeployments, r, hnamed, h => by
    obtain ⟨mid, hmid, h⟩ := bind_eq_ok.mp h
    obtain ⟨name, start, timeout, hn, -, -, hstr, k, a, b, hk, -, -, rfl⟩ :=
      updateVersionBitsParameter_ok_cases deploymentNames parseInt64 hmid
    have hkj : k ≠ j := fun hkj =>
      hnamed s (List.mem_cons_self _ _) name (start ++ ':' :: timeout) hn (hstr.trans (by simp))
        (hkj ▸ hk)
    rw [updateVersionBitsParametersFromArgs_frame
      (fun s' hs' => hnamed s' (List.mem_cons_of_mem _ hs')) h, updateVersionBitsParameters,
      List.getElem?_set_ne hkj]

/-- **Only the deployments named change.** After the `-vbparams` values, the table has its size,
and a deployment whose times changed is the first of its name in some value `name:…`. -/
theorem updateVersionBitsParametersFromArgs_eq_ok :
    ∀ {vbparams : List String} {vDeployments r : List BIP9Deployment},
      updateVersionBitsParametersFromArgs deploymentNames parseInt64 vbparams vDeployments =
        .ok r →
      r.length = vDeployments.length ∧ ∀ j, r[j]? ≠ vDeployments[j]? →
        ∃ s ∈ vbparams, ∃ name rest, deploymentNames.indexOf? ⟨name⟩ = some j ∧
          s.toList = name ++ ':' :: rest := fun h => by
  refine ⟨length_updateVersionBitsParametersFromArgs deploymentNames parseInt64 h, fun j hj => ?_⟩
  by_contra hnone
  exact hj (updateVersionBitsParametersFromArgs_frame deploymentNames parseInt64
    (fun s hs name rest _ hstr hname => hnone ⟨s, hs, name, rest, hname, hstr⟩) h)

/-- **The last value naming a deployment sets it.** Every accepted value is `name:start:end`
for a deployment `j` with both times parsed; when no later value names `j`, the table ends with
those times at `j`. -/
theorem updateVersionBitsParametersFromArgs_last {pre post : List String} {s : String}
    {vDeployments r : List BIP9Deployment}
    (h : updateVersionBitsParametersFromArgs deploymentNames parseInt64 (pre ++ s :: post)
      vDeployments = .ok r) :
    ∃ (name start timeout : List Char) (j : Nat) (nStartTime nTimeout : Int),
      s.toList = name ++ ':' :: start ++ ':' :: timeout ∧
      deploymentNames.indexOf? ⟨name⟩ = some j ∧ parseInt64 ⟨start⟩ = some nStartTime ∧
      parseInt64 ⟨timeout⟩ = some nTimeout ∧
      ((∀ s' ∈ post, ∀ name' rest, ':' ∉ name' → s'.toList = name' ++ ':' :: rest →
          deploymentNames.indexOf? ⟨name'⟩ ≠ some j) →
        j < vDeployments.length → r[j]? = some ⟨nStartTime, nTimeout⟩) := by
  rw [updateVersionBitsParametersFromArgs, List.foldlM_append] at h
  obtain ⟨mid, hmid, h⟩ := bind_eq_ok.mp h
  obtain ⟨mid', hmid', h⟩ := bind_eq_ok.mp h
  obtain ⟨name, start, timeout, -, -, -, hstr, j, a, b, hj, ha, hb, rfl⟩ :=
    updateVersionBitsParameter_ok_cases deploymentNames parseInt64 hmid'
  refine ⟨name, start, timeout, j, a, b, hstr, hj, ha, hb, fun hpost hlen => ?_⟩
  have hmid_len : j < mid.length := by
    rwa [length_updateVersionBitsParametersFromArgs deploymentNames parseInt64 hmid]
  rw [updateVersionBitsParametersFromArgs_frame deploymentNames parseInt64 hpost h,
    updateVersionBitsParameters, List.getElem?_set_self hmid_len]

end VersionBits

/-- Two deployments, and a stand-in for `ParseInt64` that reads `1` and `2`. -/
def exampleDeploymentNames : List String := ["testdummy", "csv"]

def exampleParseInt64 (s : String) : Option Int :=
  if s = "1" then some 1 else if s = "2" then some 2 else none

theorem updateVersionBitsParametersFromArgs_eq_ok_exampleCsv :
    updateVersionBitsParametersFromArgs exampleDeploymentNames exampleParseInt64 ["csv:1:2"]
        [⟨0, 0⟩, ⟨0, 0⟩] = .ok [⟨0, 0⟩, ⟨1, 2⟩] ∧
    ([⟨0, 0⟩, ⟨1, 2⟩] : List BIP9Deployment).length = [(⟨0, 0⟩ : BIP9Deployment), ⟨0, 0⟩].length ∧
    ∀ j, ([⟨0, 0⟩, ⟨1, 2⟩] : List BIP9Deployment)[j]? ≠
        [(⟨0, 0⟩ : BIP9Deployment), ⟨0, 0⟩][j]? →
      ∃ s ∈ ["csv:1:2"], ∃ name rest, exampleDeploymentNames.indexOf? ⟨name⟩ = some j ∧
        s.toList = name ++ ':' :: rest :=
  ⟨by decide, updateVersionBitsParametersFromArgs_eq_ok exampleDeploymentNames exampleParseInt64
    (by decide)⟩

theorem updateVersionBitsParametersFromArgs_last_exampleOverride :
    ∃ (name start timeout : List Char) (j : Nat) (nStartTime nTimeout : Int),
      "csv:1:2".toList = name ++ ':' :: start ++ ':' :: timeout ∧
      exampleDeploymentNames.indexOf? ⟨name⟩ = some j ∧ exampleParseInt64 ⟨start⟩ = some nStartTime ∧
      exampleParseInt64 ⟨timeout⟩ = some nTimeout ∧
      ((∀ s' ∈ ["testdummy:2:1"], ∀ name' rest, ':' ∉ name' → s'.toList = name' ++ ':' :: rest →
          exampleDeploymentNames.indexOf? ⟨name'⟩ ≠ some j) →
        j < [(⟨0, 0⟩ : BIP9Deployment), ⟨0, 0⟩].length →
        ([⟨2, 1⟩, ⟨1, 2⟩] : List BIP9Deployment)[j]? = some ⟨nStartTime, nTimeout⟩) :=
  updateVersionBitsParametersFromArgs_last exampleDeploymentNames exampleParseInt64
    (by decide : updateVersionBitsParametersFromArgs exampleDeploymentNames exampleParseInt64
      (["csv:2:2"] ++ "csv:1:2" :: ["testdummy:2:1"]) [⟨0, 0⟩, ⟨0, 0⟩] = .ok [⟨2, 1⟩, ⟨1, 2⟩])

theorem updateVersionBitsParameter_malformed_exampleShort :
    "csv:1".toList.count ':' ≠ 2 ∧
    updateVersionBitsParameter exampleDeploymentNames exampleParseInt64 [⟨0, 0⟩] "csv:1" =
      .error (.thrown "Version bits parameters malformed, expecting deployment:start:end") :=
  ⟨by decide,
    updateVersionBitsParameter_malformed exampleDeploymentNames exampleParseInt64 (by decide)⟩

end Emrals
