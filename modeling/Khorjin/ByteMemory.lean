import Mathlib.Data.Vector.Basic
import Mathlib.Order.Monotone.Basic
import Khorjin.LoopRules

set_option autoImplicit false

/-!
# Partial byte memory

Addresses are offsets from the first byte of a buffer. An address without a
byte may not be read, so a computation is defined on a memory exactly when it
reads mapped addresses only. The readers below are specified by one equivalence
each: the range they need and the value they deliver.
-/
namespace ByteMemory
open LoopRules

structure Memory where
  read : ℕ → Option UInt8

namespace Memory

def byte (b : Memory) (i : ℕ) : UInt8 := (b.read i).getD 0

/-- A read at a signed offset; nothing is mapped before the buffer. -/
def readInt (b : Memory) (i : ℤ) : Option UInt8 := if 0 ≤ i then b.read i.toNat else none

def Defined (b : Memory) (p q : ℕ) : Prop := ∀ i, p ≤ i → i < q → (b.read i).isSome

def total (m : ℕ → UInt8) : Memory := ⟨fun i => some (m i)⟩

/-- An allocation of `size` bytes that begins with `l` and is zero behind. -/
def zeroFilled (size : ℕ) (l : List UInt8) : Memory :=
  ⟨fun i => if i < size then some (l.getD i 0) else none⟩

/-- The part of a memory before `n`. -/
def below (b : Memory) (n : ℕ) : Memory := ⟨fun i => if i < n then b.read i else none⟩

/-- The part of a memory at the addresses in `S`. -/
def within (b : Memory) (S : ℕ → Prop) [DecidablePred S] : Memory :=
  ⟨fun i => if S i then b.read i else none⟩

@[simp] theorem total_byte (m : ℕ → UInt8) : (total m).byte = m := rfl

theorem total_defined (m : ℕ → UInt8) (p q : ℕ) : (total m).Defined p q := fun _ _ _ => rfl

theorem zeroFilled_byte {size i : ℕ} (l : List UInt8) (h : i < size) :
    (zeroFilled size l).byte i = l.getD i 0 := by
  simp [byte, zeroFilled, h]

theorem zeroFilled_defined {size p q : ℕ} (l : List UInt8) (h : q ≤ size) :
    (zeroFilled size l).Defined p q := by
  intro i _ hi
  simp [zeroFilled, show i < size by omega]

theorem below_byte (b : Memory) {n i : ℕ} (h : i < n) : (b.below n).byte i = b.byte i := by
  simp [byte, below, h]

theorem below_defined_iff (b : Memory) (n p q : ℕ) :
    (b.below n).Defined p q ↔ b.Defined p q ∧ (p < q → q ≤ n) := by
  constructor
  · intro h
    refine ⟨fun i hp hq => ?_, fun hpq => ?_⟩
    · have hi := h i hp hq
      by_cases hn : i < n
      · simpa [below, hn] using hi
      · simp [below, hn] at hi
    · have hi := h (q - 1) (by omega) (by omega)
      by_contra hn
      simp [below, show ¬ q - 1 < n by omega] at hi
  · rintro ⟨h, hn⟩ i hp hq
    have := hn (by omega)
    simpa [below, show i < n by omega] using h i hp hq

theorem within_byte (b : Memory) {S : ℕ → Prop} [DecidablePred S] {i : ℕ} (h : S i) :
    (b.within S).byte i = b.byte i := by
  simp [byte, within, h]

theorem Defined.within {b : Memory} {p q : ℕ} (h : b.Defined p q) {S : ℕ → Prop}
    [DecidablePred S] (inside : ∀ i, p ≤ i → i < q → S i) : (b.within S).Defined p q := by
  intro i hp hq
  simpa [Memory.within, inside i hp hq] using h i hp hq

theorem Defined.mono {b : Memory} {p q p' q' : ℕ} (h : b.Defined p q) (hp : p ≤ p')
    (hq : q' ≤ q) : b.Defined p' q' := fun i hi hi' => h i (by omega) (by omega)

@[simp] theorem defined_self (b : Memory) (p : ℕ) : b.Defined p p := fun _ _ _ => by omega

theorem defined_append {b : Memory} {p q r : ℕ} (hp : p ≤ q) (hq : q ≤ r) :
    b.Defined p q ∧ b.Defined q r ↔ b.Defined p r := by
  constructor
  · rintro ⟨h, h'⟩ i hi hr
    by_cases hiq : i < q
    · exact h i hi hiq
    · exact h' i (by omega) hr
  · intro h
    exact ⟨h.mono (le_refl p) hq, h.mono hp (le_refl r)⟩

theorem defined_add (b : Memory) (p v w : ℕ) :
    b.Defined p (p + v + w) ↔ b.Defined p (p + v) ∧ b.Defined (p + v) (p + v + w) :=
  (defined_append (by omega) (by omega)).symm

theorem defined_chain (b : Memory) {f : ℕ → ℕ} (mono : ∀ j, f j ≤ f (j + 1)) (n : ℕ) :
    (∀ j < n, b.Defined (f j) (f (j + 1))) ↔ b.Defined (f 0) (f n) := by
  induction n with
  | zero => simp
  | succ n ih =>
    have up : f 0 ≤ f n := by
      have h := monotone_nat_of_le_succ mono
      exact h (Nat.zero_le n)
    rw [← defined_append up (mono n), ← ih]
    constructor
    · intro h
      exact ⟨fun j hj => h j (by omega), h n (by omega)⟩
    · rintro ⟨h, h'⟩ j hj
      rcases Nat.lt_or_eq_of_le (Nat.le_of_lt_succ hj) with hlt | rfl
      · exact h j hlt
      · exact h'

theorem defined_blocks (b : Memory) (p w n : ℕ) :
    (∀ j < n, b.Defined (p + w * j) (p + w * (j + 1))) ↔ b.Defined p (p + w * n) := by
  have mono : ∀ j, p + w * j ≤ p + w * (j + 1) := by
    intro j
    rw [Nat.mul_succ]
    omega
  simpa only [Nat.mul_zero, Nat.add_zero] using defined_chain b mono n

theorem defined_slots (b : Memory) (p w n : ℕ) :
    (∀ j < n, b.Defined (p + w * j) (p + w * j + w)) ↔ b.Defined p (p + w * n) := by
  rw [← defined_blocks b p w n]
  simp only [Nat.mul_succ, Nat.add_assoc]

theorem read_iff (b : Memory) (i : ℕ) (x : UInt8) :
    b.read i = some x ↔ b.Defined i (i + 1) ∧ b.byte i = x := by
  constructor
  · intro h
    refine ⟨fun k hk hk' => ?_, ?_⟩
    · obtain rfl : k = i := by omega
      simp [h]
    · simp [byte, h]
  · rintro ⟨h, rfl⟩
    have hi := h i (le_refl i) (by omega)
    obtain ⟨y, hy⟩ := Option.isSome_iff_exists.1 hi
    simp [byte, hy]

theorem read_bind {β : Type} (b : Memory) (i : ℕ) (k : UInt8 → Option β) (u : β) :
    (b.read i).bind k = some u ↔ b.Defined i (i + 1) ∧ k (b.byte i) = some u :=
  bind_iff (read_iff b i) k u

theorem readInt_natCast (b : Memory) (i : ℕ) : b.readInt i = b.read i := by
  simp [readInt]

/-- `memcpy` of `n` bytes out of the memory. -/
def readBytes (b : Memory) : (n : ℕ) → ℕ → Option (List.Vector UInt8 n)
  | 0, _ => some List.Vector.nil
  | n + 1, p => do
    let x ← b.read p
    let xs ← readBytes b n (p + 1)
    some (x ::ᵥ xs)

def bytesAt (m : ℕ → UInt8) : (n : ℕ) → ℕ → List.Vector UInt8 n
  | 0, _ => List.Vector.nil
  | n + 1, p => m p ::ᵥ bytesAt m n (p + 1)

theorem readBytes_iff (b : Memory) (n p : ℕ) (v : List.Vector UInt8 n) :
    b.readBytes n p = some v ↔ b.Defined p (p + n) ∧ bytesAt b.byte n p = v := by
  induction n generalizing p with
  | zero => simp [readBytes, bytesAt]
  | succ n ih =>
    rw [← defined_append (q := p + 1) (by omega) (by omega), show p + (n + 1) = p + 1 + n by omega]
    simp only [readBytes, Option.bind_eq_bind, read_bind, bind_iff (ih (p + 1)), bytesAt,
      Option.some.injEq, and_assoc]

theorem bytesAt_toList (m : ℕ → UInt8) (n p : ℕ) :
    (bytesAt m n p).toList = (List.range n).map (fun i => m (p + i)) := by
  induction n generalizing p with
  | zero => rfl
  | succ n ih =>
    rw [bytesAt, List.Vector.toList_cons, ih, List.range_succ_eq_map, List.map_cons, List.map_map]
    refine congrArg (m p :: ·) (List.map_congr_left (fun i _ => congrArg m ?_))
    simp only [Nat.succ_eq_add_one]
    omega

theorem bytesAt_congr {m m' : ℕ → UInt8} {n p : ℕ} (h : ∀ i, p ≤ i → i < p + n → m i = m' i) :
    bytesAt m n p = bytesAt m' n p := by
  apply List.Vector.toList_injective
  rw [bytesAt_toList, bytesAt_toList]
  apply List.map_congr_left
  intro i hi
  have := List.mem_range.1 hi
  exact h (p + i) (by omega) (by omega)

end Memory
end ByteMemory
