import Mathlib.Data.UInt
import Mathlib.Tactic.Ring
import Khorjin.ExactArithmetic
import Khorjin.LoopRules

set_option autoImplicit false

/-!
# Retries while connecting

`c37_118client_connect` tries until the socket connects, and multiplies its timeout by
a power of two after every failure. Which attempts succeed is an argument.
-/
namespace Khorjin
open LoopRules

/-- Doubling in residues: as long as nothing is lost the values rise, and the first value
    that does not fit is smaller than the one before. -/
theorem doubling_rises_iff {x M : ℕ} (fits : x < M) (n : ℕ) :
    (∀ k < n, x * 2 ^ k % M ≤ x * 2 ^ (k + 1) % M) ↔ x * 2 ^ n < M := by
  induction n with
  | zero => simpa using fits
  | succ n ih =>
    have double : x * 2 ^ (n + 1) = 2 * (x * 2 ^ n) := by ring
    rw [Nat.forall_lt_succ_right, ih, double]
    constructor
    · rintro ⟨lt, rises⟩
      by_contra exceeds
      have wrapped : 2 * (x * 2 ^ n) % M = 2 * (x * 2 ^ n) - M := by
        rw [Nat.mod_eq_sub_mod (by omega), Nat.mod_eq_of_lt (by omega)]
      rw [wrapped, Nat.mod_eq_of_lt lt] at rises
      omega
    · intro lt
      refine ⟨by omega, ?_⟩
      rw [Nat.mod_eq_of_lt (show x * 2 ^ n < M by omega), Nat.mod_eq_of_lt lt]
      omega

section
variable {F : Type}

def setConnectTimeout (self : Client F) (timeoutInMs : UInt32) : Client F :=
  { self with connectTimeout := timeoutInMs }

/-- `(int)pow((double)2, count)`. The conversion of a power beyond the range of `int` is
    undefined. -/
def intPow2 (count : ℕ) : Option Int32 :=
  if 2 ^ count < 2 ^ 31 then some (Int32.ofNat (2 ^ count)) else none

def reconnect (timeoutInMs : UInt32) (count : ℕ) (self : Client F) : Option (Client F) := do
  let power ← intPow2 count
  let newTimeoutInMs : Int32 := (power.toUInt32 * timeoutInMs).toInt32
  some (setConnectTimeout self newTimeoutInMs.toUInt32)

/-- The loop, over what `Socket_connect` returns. It is left at the first success, and
    never without one. -/
def connectLoop (timeoutInMs : UInt32) : List Bool → ℕ → Client F → Option (Client F)
  | [], _, _ => none
  | true :: _, _, self => some self
  | false :: attempts, count, self => do
    let self ← reconnect timeoutInMs count self
    connectLoop timeoutInMs attempts (count + 1) self

theorem connectLoop_failures (timeoutInMs : UInt32) (k : ℕ) (rest : List Bool)
    (self : Client F) : connectLoop timeoutInMs (List.replicate k false ++ rest) 0 self =
      (forLoop (reconnect timeoutInMs) k self).bind (connectLoop timeoutInMs rest k) := by
  induction k generalizing rest with
  | zero => rfl
  | succ k ih =>
    have last : List.replicate (k + 1) false ++ rest = List.replicate k false ++ false :: rest := by
      simp [List.replicate_succ']
    rw [last, ih, forLoop, Option.bind_assoc]
    rfl

def timeoutOf (timeoutInMs : UInt32) : ℕ → UInt32
  | 0 => timeoutInMs
  | k + 1 => UInt32.ofNat (timeoutInMs.toNat * 2 ^ k)

theorem timeoutOf_succ_toNat (timeoutInMs : UInt32) (k : ℕ) :
    (timeoutOf timeoutInMs (k + 1)).toNat = timeoutInMs.toNat * 2 ^ k % 2 ^ 32 :=
  UInt32.toNat_ofNat'

theorem timeoutOf_one (timeoutInMs : UInt32) : timeoutOf timeoutInMs 1 = timeoutInMs := by
  rw [timeoutOf, pow_zero, mul_one, UInt32.ofNat_toNat]

theorem timeoutOf_rises_iff (timeoutInMs : UInt32) (n : ℕ) :
    (∀ k < n + 1, timeoutOf timeoutInMs k ≤ timeoutOf timeoutInMs (k + 1)) ↔
      timeoutInMs.toNat * 2 ^ n < 2 ^ 32 := by
  have le_iff : ∀ k, timeoutOf timeoutInMs (k + 1) ≤ timeoutOf timeoutInMs (k + 2) ↔
      timeoutInMs.toNat * 2 ^ k % 2 ^ 32 ≤ timeoutInMs.toNat * 2 ^ (k + 1) % 2 ^ 32 := by
    intro k
    rw [UInt32.le_iff_toNat_le, timeoutOf_succ_toNat, timeoutOf_succ_toNat]
  rw [← doubling_rises_iff timeoutInMs.toNat_lt n]
  constructor
  · intro rises k hk
    exact (le_iff k).1 (rises (k + 1) (by omega))
  · intro rises k hk
    cases k with
    | zero =>
      rw [timeoutOf_one, timeoutOf]
      exact UInt32.le_refl timeoutInMs
    | succ k => exact (le_iff k).2 (rises k (by omega))

theorem timeoutOf_exact {timeoutInMs : UInt32} {n : ℕ} (fits : timeoutInMs.toNat * 2 ^ n < 2 ^ 32)
    {k : ℕ} (hk : k ≤ n) :
    (timeoutOf timeoutInMs (k + 1)).toNat = timeoutInMs.toNat * 2 ^ k := by
  have le : timeoutInMs.toNat * 2 ^ k ≤ timeoutInMs.toNat * 2 ^ n :=
    Nat.mul_le_mul_left _ (Nat.pow_le_pow_right Nat.two_pos hk)
  rw [timeoutOf_succ_toNat, Nat.mod_eq_of_lt (by omega)]

theorem reconnect_iff (timeoutInMs : UInt32) (count : ℕ) (self u : Client F) :
    reconnect timeoutInMs count self = some u ↔
      count < 31 ∧ setConnectTimeout self (timeoutOf timeoutInMs (count + 1)) = u := by
  have inRange : 2 ^ count < 2 ^ 31 ↔ count < 31 := Nat.pow_lt_pow_iff_right (by decide)
  have product : (Int32.ofNat (2 ^ count)).toUInt32 * timeoutInMs =
      timeoutOf timeoutInMs (count + 1) := by
    rw [Int32.toUInt32_ofNat', timeoutOf, mul_comm timeoutInMs.toNat, UInt32.ofNat_mul,
      UInt32.ofNat_toNat]
  by_cases h : count < 31
  · have power : intPow2 count = some (Int32.ofNat (2 ^ count)) := if_pos (inRange.2 h)
    simp only [reconnect, power, Option.bind_eq_bind, Option.bind_some,
      UInt32.toUInt32_toInt32, product, Option.some.injEq, h, true_and]
  · have power : intPow2 count = none := if_neg (fun lt => h (inRange.1 lt))
    simp [reconnect, power, h]

theorem retries_iff {self : Client F} {timeoutInMs : UInt32}
    (start : self.connectTimeout = timeoutInMs) (k : ℕ) (u : Client F) :
    forLoop (reconnect timeoutInMs) k self = some u ↔
      k ≤ 31 ∧ setConnectTimeout self (timeoutOf timeoutInMs k) = u := by
  have first : setConnectTimeout self (timeoutOf timeoutInMs 0) = self := by
    rw [timeoutOf, ← start]
    rfl
  have run := forLoop_iff (fun j => setConnectTimeout self (timeoutOf timeoutInMs j))
    (fun j => j < 31) k (fun j _ u => reconnect_iff timeoutInMs j _ u) u
  rw [first, forall_lt_iff_le] at run
  exact run

end

section
variable {F D : Type} [Platform F D]

def connect (pmuIdCode : ℤ) (timeoutInMs : UInt32) (bufferSnd bufferRcv : List UInt8)
    (attempts : List Bool) : Option (Client F) :=
  connectLoop timeoutInMs attempts 0 (Client.fresh pmuIdCode timeoutInMs bufferSnd bufferRcv)

/-- The client that is returned when the attempt after `k` failures succeeds. It has the
    timeout of that attempt. -/
def afterFailures (pmuIdCode : ℤ) (timeoutInMs : UInt32) (bufferSnd bufferRcv : List UInt8)
    (k : ℕ) : Option (Client F) :=
  connect pmuIdCode timeoutInMs bufferSnd bufferRcv (List.replicate k false ++ [true])

/-- Up to `n` failures every timeout is at least the one before, at least the first, and
    not 0. -/
def BacksOff (timeoutInMs : UInt32) (client : ℕ → Option (Client F)) (n : ℕ) : Prop :=
  ∀ k < n, ∃ s s', client k = some s ∧ client (k + 1) = some s' ∧
    s.connectTimeout ≤ s'.connectTimeout ∧ timeoutInMs ≤ s'.connectTimeout ∧
      s'.connectTimeout ≠ 0

variable (pmuIdCode : ℤ) (timeoutInMs : UInt32) (bufferSnd bufferRcv : List UInt8)

theorem afterFailures_iff (k : ℕ) (u : Client F) :
    afterFailures pmuIdCode timeoutInMs bufferSnd bufferRcv k = some u ↔
      k ≤ 31 ∧ setConnectTimeout (Client.fresh pmuIdCode timeoutInMs bufferSnd bufferRcv)
        (timeoutOf timeoutInMs k) = u := by
  have start : (Client.fresh pmuIdCode timeoutInMs bufferSnd bufferRcv : Client F).connectTimeout =
      timeoutInMs := rfl
  rw [afterFailures, connect, connectLoop_failures, ← retries_iff start, Option.bind_eq_some_iff]
  constructor
  · rintro ⟨s, h, hu⟩
    cases hu
    exact h
  · intro h
    exact ⟨u, h, rfl⟩

/-- The timeouts rise exactly as long as the product fits 32 bits and the power of two
    fits an `int`. -/
theorem backs_off_iff (pos : 1 ≤ timeoutInMs) (n : ℕ) :
    BacksOff timeoutInMs (afterFailures pmuIdCode timeoutInMs bufferSnd bufferRcv :
        ℕ → Option (Client F)) n ↔
      n = 0 ∨ n ≤ 31 ∧ timeoutInMs.toNat * 2 ^ (n - 1) < 2 ^ 32 := by
  cases n with
  | zero => simp [BacksOff]
  | succ n =>
    rw [or_iff_right (Nat.succ_ne_zero n), Nat.add_sub_cancel]
    constructor
    · intro rises
      constructor
      · obtain ⟨_, _, _, h', _⟩ := rises n (Nat.lt_succ_self n)
        exact ((afterFailures_iff _ _ _ _ _ _).1 h').1
      · refine (timeoutOf_rises_iff timeoutInMs n).1 (fun k hk => ?_)
        obtain ⟨s, s', h, h', le, _⟩ := rises k hk
        obtain ⟨_, rfl⟩ := (afterFailures_iff _ _ _ _ _ _).1 h
        obtain ⟨_, rfl⟩ := (afterFailures_iff _ _ _ _ _ _).1 h'
        exact le
    · rintro ⟨bound, fits⟩ k hk
      have positive : 0 < timeoutInMs.toNat := UInt32.le_iff_toNat_le.1 pos
      have exactly := timeoutOf_exact fits (Nat.le_of_lt_succ hk)
      have grown : timeoutInMs.toNat ≤ timeoutInMs.toNat * 2 ^ k :=
        Nat.le_mul_of_pos_right _ (Nat.two_pow_pos k)
      refine ⟨_, _, (afterFailures_iff _ _ _ _ _ _).2 ⟨by omega, rfl⟩,
        (afterFailures_iff _ _ _ _ _ _).2 ⟨by omega, rfl⟩,
        (timeoutOf_rises_iff timeoutInMs n).2 fits k hk, ?_, ?_⟩
      · change timeoutInMs ≤ timeoutOf timeoutInMs (k + 1)
        rw [UInt32.le_iff_toNat_le, exactly]
        exact grown
      · intro zero
        have vanishes : (timeoutOf timeoutInMs (k + 1)).toNat = 0 := congrArg UInt32.toNat zero
        omega

end

section
attribute [local instance] ExactRational.platform

def refused (k : ℕ) : Option (Client ℚ) := afterFailures 7 3000 [] [] k

theorem three_seconds_collapse :
    (refused 21).map Client.connectTimeout = some 3145728000 ∧
      (refused 22).map Client.connectTimeout = some 1996488704 ∧
      (refused 30).map Client.connectTimeout = some 0 ∧ refused 32 = none ∧
      ¬ BacksOff 3000 refused 22 := by
  have before : (refused 21).map Client.connectTimeout = some 3145728000 := by decide +kernel
  have behind : (refused 22).map Client.connectTimeout = some 1996488704 := by decide +kernel
  refine ⟨before, behind, by decide +kernel, by decide +kernel, fun rises => ?_⟩
  obtain ⟨s, s', h, h', le, _⟩ := rises 21 (by decide)
  rw [h, Option.map_some, Option.some.injEq] at before
  rw [h', Option.map_some, Option.some.injEq] at behind
  rw [before, behind] at le
  exact absurd le (by decide)

theorem three_seconds_back_off : BacksOff 3000 refused 21 :=
  (backs_off_iff 7 3000 [] [] (by decide) 21).2 (.inr (by decide))

end
end Khorjin
