import Mathlib.Tactic.Common
import Mathlib.Algebra.Group.Int

/-!
# Outcomes and machine integers

* `Failure`: how a modelled function ends without a result: a rejection carrying the source's
  reason text, an `assert` that fires, undefined behaviour (an out-of-range `operator[]`, a null
  dereference, a signed overflow), a thrown exception (`std::runtime_error`,
  `std::length_error`), or the model's loop bound running out. Every modelled function
  returns `Except Failure _`.
* `bind_eq_ok`, `ite_error_eq_ok`, `ite_error_eq_error`: the inversions of `>>=` and of a guard
  that the step lemmas peel computations apart with;
  `rejectAs`: a callee's `false` turned into the caller's own error; `foldlM_map_congr`: two
  loops whose steps agree under a projection of their state.
* `int64_t` arithmetic as `Int`: `int64Add`, `int64Mul` are undefined outside `Int64Range`;
  `tdiv` is the truncating division of C++.
* `arith_uint256` products are taken modulo `2 ^ 256` (`arith256Mul`); `COIN`.
* `uint256` in memory: `leBytes`, its bytes least significant first, and `blobCompare`
  (`base_blob::Compare`), a `memcmp` of them, which is not the order of the numbers. `memcmp`
  is a total order on byte strings (`memcmp_swap`, `memcmp_le_trans`, `memcmp_eq_eq`), and the
  bytes of a value below `2 ^ 256` determine it (`eq_of_leBytes_eq`).
-/

namespace Emrals

/-- How a modelled function ends when it produces no result. -/
inductive Failure where
  /-- The function returns `false`, or rejects through `state.Invalid`, with this reason. -/
  | reject (reason : String)
  /-- An `assert` fails. -/
  | assertFailed (what : String)
  /-- The C++ code has undefined behaviour here. -/
  | undefined (what : String)
  /-- A C++ exception is thrown with this message. -/
  | thrown (what : String)
  /-- The model's bound on a loop that the source runs without one is exhausted; the theorems
  about such a loop show which inputs never reach it. -/
  | outOfFuel
  deriving DecidableEq, Repr

/-- Outcomes can be compared, so that a test of one closes by `decide`. -/
instance instDecidableEqExcept {ε α : Type} [DecidableEq ε] [DecidableEq α] :
    DecidableEq (Except ε α)
  | .error e, .error e' => decidable_of_iff (e = e') ⟨congrArg _, Except.error.inj⟩
  | .ok a, .ok a' => decidable_of_iff (a = a') ⟨congrArg _, Except.ok.inj⟩
  | .error _, .ok _ => isFalse nofun
  | .ok _, .error _ => isFalse nofun

theorem bind_eq_ok {α β : Type} {x : Except Failure α} {f : α → Except Failure β} {b : β} :
    x >>= f = .ok b ↔ ∃ a, x = .ok a ∧ f a = .ok b := by
  cases x <;> simp [bind, Except.bind]

theorem bind_eq_error {α β : Type} {x : Except Failure α} {f : α → Except Failure β}
    {e : Failure} : x >>= f = .error e ↔ x = .error e ∨ ∃ a, x = .ok a ∧ f a = .error e := by
  cases x <;> simp [bind, Except.bind]

@[simp] theorem ok_bind {α β : Type} (a : α) (f : α → Except Failure β) :
    (Except.ok a : Except Failure α) >>= f = f a := rfl

@[simp] theorem error_bind {α β : Type} (e : Failure) (f : α → Except Failure β) :
    (Except.error e : Except Failure α) >>= f = .error e := rfl

theorem ite_error_eq_ok {α : Type} {c : Prop} [Decidable c] {e : Failure}
    {x : Except Failure α} {a : α} : (if c then .error e else x) = .ok a ↔ ¬ c ∧ x = .ok a := by
  by_cases hc : c <;> simp [hc]

theorem ite_error_eq_error {α : Type} {c : Prop} [Decidable c] {e₁ e : Failure}
    {x : Except Failure α} :
    (if c then .error e₁ else x) = .error e ↔ (c ∧ e₁ = e) ∨ (¬ c ∧ x = .error e) := by
  by_cases hc : c <;> simp [hc]

/-- A callee's `false` becomes the caller's own rejection `msg`; undefined behaviour and failed
asserts pass through. -/
def rejectAs {α : Type} (msg : String) : Except Failure α → Except Failure α
  | .error (.reject _) => .error (.reject msg)
  | x => x

@[simp] theorem rejectAs_ok {α : Type} (msg : String) (a : α) : rejectAs msg (.ok a) = .ok a := rfl

theorem rejectAs_eq_ok {α : Type} {msg : String} {x : Except Failure α} {a : α} :
    rejectAs msg x = .ok a ↔ x = .ok a := by
  rcases x with (_ | _ | _ | _ | _) | _ <;> simp [rejectAs]

theorem foldlM_map_congr {σ τ α : Type} (proj : σ → τ) {f g : σ → α → Except Failure σ}
    (hfg : ∀ s t a, proj s = proj t → (f s a).map proj = (g t a).map proj) :
    ∀ (l : List α) (s t : σ), proj s = proj t →
      (l.foldlM f s).map proj = (l.foldlM g t).map proj
  | [], _, _, h => congrArg Except.ok h
  | a :: l, s, t, h => by
    have hst := hfg s t a h
    simp only [List.foldlM_cons]
    revert hst
    rcases f s a with e | s' <;> rcases g t a with e' | t' <;> intro hst
    · cases hst; rfl
    · cases hst
    · cases hst
    · exact foldlM_map_congr proj hfg l s' t' (Except.ok.inj hst)

theorem bind_comp_congr {σ τ β : Type} (proj : σ → τ) {x y : Except Failure σ}
    (h : x.map proj = y.map proj) (f : τ → Except Failure β) :
    x >>= (f ∘ proj) = y >>= (f ∘ proj) := by
  rcases x with e | a <;> rcases y with e' | b
  · cases h; rfl
  · cases h
  · cases h
  · exact congrArg f (Except.ok.inj h)

/-! ## `int64_t` -/

/-- `std::numeric_limits<int64_t>::max()`. -/
def INT64_MAX : Int := 2 ^ 63 - 1

/-- `std::numeric_limits<int64_t>::min()`. -/
def INT64_MIN : Int := -2 ^ 63

/-- The values an `int64_t` can hold. -/
def Int64Range (x : Int) : Prop := INT64_MIN ≤ x ∧ x ≤ INT64_MAX

instance : DecidablePred Int64Range := fun x =>
  inferInstanceAs (Decidable (INT64_MIN ≤ x ∧ x ≤ INT64_MAX))

/-- `a + b` on `int64_t`: signed overflow is undefined. -/
def int64Add (a b : Int) : Except Failure Int :=
  if Int64Range (a + b) then .ok (a + b) else .error (.undefined "signed overflow in +")

/-- `a * b` on `int64_t`: signed overflow is undefined. -/
def int64Mul (a b : Int) : Except Failure Int :=
  if Int64Range (a * b) then .ok (a * b) else .error (.undefined "signed overflow in *")

theorem int64Add_of_range {a b : Int} (h : Int64Range (a + b)) : int64Add a b = .ok (a + b) :=
  if_pos h

theorem int64Mul_of_range {a b : Int} (h : Int64Range (a * b)) : int64Mul a b = .ok (a * b) :=
  if_pos h

theorem int64Mul_of_not_range {a b : Int} (h : ¬ Int64Range (a * b)) :
    int64Mul a b = .error (.undefined "signed overflow in *") :=
  if_neg h

/-- `COIN`: atomic units per coin. -/
def COIN : Int := 100000000

/-! ## `arith_uint256` -/

/-- `a * b` on `arith_uint256`: the product modulo `2 ^ 256`. -/
def arith256Mul (a b : Nat) : Nat := a * b % 2 ^ 256

/-- `arith_uint256(uint64_t)` applied to an `int64_t`: the value is first converted to
`uint64_t`, modulo `2 ^ 64`. -/
def arith256OfInt64 (x : Int) : Nat := (x % 2 ^ 64).toNat

theorem arith256Mul_of_lt {a b : Nat} (h : a * b < 2 ^ 256) : arith256Mul a b = a * b :=
  Nat.mod_eq_of_lt h

theorem arith256OfInt64_of_nonneg {x : Int} (h0 : 0 ≤ x) (h : x < 2 ^ 64) :
    arith256OfInt64 x = x.toNat := by
  rw [arith256OfInt64, Int.emod_eq_of_lt h0 h]

/-! ## `uint256` -/

/-- The `n` bytes of `x` in memory, least significant first, as `base_blob` stores a number. -/
def leBytes : Nat → Nat → List Nat
  | 0, _ => []
  | n + 1, x => x % 256 :: leBytes n (x / 256)

/-- `memcmp` of two byte strings, the first byte that differs deciding; the strings it is called
on here have one length. -/
def memcmp : List Nat → List Nat → Ordering
  | [], [] => .eq
  | [], _ :: _ => .lt
  | _ :: _, [] => .gt
  | a :: as, b :: bs => (compare a b).then (memcmp as bs)

/-- `base_blob<256>::Compare`: `memcmp` of the 32 bytes. -/
def blobCompare (a b : Nat) : Ordering := memcmp (leBytes 32 a) (leBytes 32 b)

example : blobCompare 256 1 = .lt := by decide

theorem memcmp_swap : ∀ l l' : List Nat, memcmp l' l = (memcmp l l').swap
  | [], [] | [], _ :: _ | _ :: _, [] => rfl
  | a :: as, b :: bs => by
    rw [memcmp, memcmp, Ordering.swap_then, Nat.compare_swap, memcmp_swap as bs]

theorem memcmp_eq_eq : ∀ {l l' : List Nat}, memcmp l l' = .eq → l = l'
  | [], [], _ => rfl
  | a :: as, b :: bs, h => by
    rw [memcmp, Ordering.then_eq_eq, Nat.compare_eq_eq] at h
    rw [h.1, memcmp_eq_eq h.2]

theorem memcmp_le_trans : ∀ {l₁ l₂ l₃ : List Nat}, memcmp l₁ l₂ ≠ .gt → memcmp l₂ l₃ ≠ .gt →
    memcmp l₁ l₃ ≠ .gt
  | [], _, [], _, _ | [], _, _ :: _, _, _ => nofun
  | _ :: _, [], _, h, _ => absurd rfl h
  | _ :: _, _ :: _, [], _, h => absurd rfl h
  | a :: as, b :: bs, c :: cs, h1, h2 => by
    simp only [memcmp, ne_eq, Ordering.then_eq_gt, Nat.compare_eq_gt, Nat.compare_eq_eq, not_or,
      not_and] at h1 h2 ⊢
    exact ⟨by omega, fun _ => memcmp_le_trans (h1.2 (by omega)) (h2.2 (by omega))⟩

theorem eq_of_leBytes_eq : ∀ {n x y : Nat}, x < 256 ^ n → y < 256 ^ n →
    leBytes n x = leBytes n y → x = y
  | 0, _, _, hx, hy, _ => by simp only [Nat.pow_zero] at hx hy; omega
  | n + 1, x, y, hx, hy, h => by
    rw [Nat.pow_succ'] at hx hy
    simp only [leBytes, List.cons.injEq] at h
    have := eq_of_leBytes_eq (Nat.div_lt_of_lt_mul hx) (Nat.div_lt_of_lt_mul hy) h.2
    omega

end Emrals
