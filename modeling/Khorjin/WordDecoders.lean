import Khorjin.ByteMemory
import Khorjin.ClientRecords

set_option autoImplicit false

/-!
# Big-endian words

The byte readers of `ieeeC37_118.c`. Each returns the value it stores through its
pointer argument and the advanced cursor.
-/
namespace Khorjin
open ByteMemory LoopRules

/-- The `int` product wraps like the unsigned one it is assigned to. -/
def fourByteToUint32 (buffer : Memory) (bufPos : ℕ) : Option (UInt32 × ℕ) := do
  let b0 ← buffer.read bufPos
  let b1 ← buffer.read (bufPos + 1)
  let b2 ← buffer.read (bufPos + 2)
  let b3 ← buffer.read (bufPos + 3)
  some (b0.toUInt32 * 0x1000000 + b1.toUInt32 * 0x10000 + b2.toUInt32 * 0x100 + b3.toUInt32,
    bufPos + 4)

def threeByteToUint32 (buffer : Memory) (bufPos : ℕ) : Option (UInt32 × ℕ) := do
  let b0 ← buffer.read bufPos
  let b1 ← buffer.read (bufPos + 1)
  let b2 ← buffer.read (bufPos + 2)
  some (b0.toUInt32 * 0x10000 + b1.toUInt32 * 0x100 + b2.toUInt32, bufPos + 3)

def twoByteToUint16 (buffer : Memory) (bufPos : ℕ) : Option (UInt16 × ℕ) := do
  let b0 ← buffer.read bufPos
  let b1 ← buffer.read (bufPos + 1)
  some (b0.toUInt16 * 0x100 + b1.toUInt16, bufPos + 2)

/-- The four bytes become the object representation of the float, the first one
    its most significant byte on either byte order of the machine. -/
def decodeFloatingPointValue {F D : Type} [FloatArith F D] (buffer : Memory) (bufPos : ℕ) :
    Option (F × ℕ) := do
  let b0 ← buffer.read bufPos
  let b1 ← buffer.read (bufPos + 1)
  let b2 ← buffer.read (bufPos + 2)
  let b3 ← buffer.read (bufPos + 3)
  some (FloatArith.ofBits
    (b0.toUInt32 * 0x1000000 + b1.toUInt32 * 0x10000 + b2.toUInt32 * 0x100 + b3.toUInt32),
    bufPos + 4)

def word16 (m : ℕ → UInt8) (p : ℕ) : UInt16 := (m p).toUInt16 * 0x100 + (m (p + 1)).toUInt16

def word24 (m : ℕ → UInt8) (p : ℕ) : UInt32 :=
  (m p).toUInt32 * 0x10000 + (m (p + 1)).toUInt32 * 0x100 + (m (p + 2)).toUInt32

def word32 (m : ℕ → UInt8) (p : ℕ) : UInt32 :=
  (m p).toUInt32 * 0x1000000 + (m (p + 1)).toUInt32 * 0x10000 + (m (p + 2)).toUInt32 * 0x100 +
    (m (p + 3)).toUInt32

def float32 {F D : Type} [FloatArith F D] (m : ℕ → UInt8) (p : ℕ) : F :=
  FloatArith.ofBits (word32 m p)

theorem defined_succ (b : Memory) (p k : ℕ) :
    b.Defined p (p + (k + 1)) ↔ b.Defined p (p + 1) ∧ b.Defined (p + 1) (p + 1 + k) := by
  rw [Memory.defined_append (by omega) (by omega), Nat.add_right_comm, Nat.add_assoc]

theorem twoByteToUint16_iff (b : Memory) (p : ℕ) (r : UInt16 × ℕ) :
    twoByteToUint16 b p = some r ↔ b.Defined p (p + 2) ∧ (word16 b.byte p, p + 2) = r := by
  rw [defined_succ b p 1]
  simp only [twoByteToUint16, word16, Option.bind_eq_bind, Memory.read_bind, Option.some.injEq,
    and_assoc]

theorem threeByteToUint32_iff (b : Memory) (p : ℕ) (r : UInt32 × ℕ) :
    threeByteToUint32 b p = some r ↔ b.Defined p (p + 3) ∧ (word24 b.byte p, p + 3) = r := by
  rw [defined_succ b p 2, defined_succ b (p + 1) 1]
  simp only [threeByteToUint32, word24, Option.bind_eq_bind, Memory.read_bind, Option.some.injEq,
    and_assoc]

theorem fourByteToUint32_iff (b : Memory) (p : ℕ) (r : UInt32 × ℕ) :
    fourByteToUint32 b p = some r ↔ b.Defined p (p + 4) ∧ (word32 b.byte p, p + 4) = r := by
  rw [defined_succ b p 3, defined_succ b (p + 1) 2, defined_succ b (p + 1 + 1) 1]
  simp only [fourByteToUint32, word32, Option.bind_eq_bind, Memory.read_bind, Option.some.injEq,
    and_assoc]

theorem decodeFloatingPointValue_iff {F D : Type} [FloatArith F D] (b : Memory) (p : ℕ)
    (r : F × ℕ) : decodeFloatingPointValue b p = some r ↔
      b.Defined p (p + 4) ∧ (float32 b.byte p, p + 4) = r := by
  rw [defined_succ b p 3, defined_succ b (p + 1) 2, defined_succ b (p + 1 + 1) 1]
  simp only [decodeFloatingPointValue, float32, word32, Option.bind_eq_bind, Memory.read_bind,
    Option.some.injEq, and_assoc]

theorem twoByteToUint16_bind {β : Type} (b : Memory) (p : ℕ) (k : UInt16 × ℕ → Option β) (u : β) :
    (twoByteToUint16 b p).bind k = some u ↔
      b.Defined p (p + 2) ∧ k (word16 b.byte p, p + 2) = some u :=
  bind_iff (twoByteToUint16_iff b p) k u

theorem threeByteToUint32_bind {β : Type} (b : Memory) (p : ℕ) (k : UInt32 × ℕ → Option β)
    (u : β) : (threeByteToUint32 b p).bind k = some u ↔
      b.Defined p (p + 3) ∧ k (word24 b.byte p, p + 3) = some u :=
  bind_iff (threeByteToUint32_iff b p) k u

theorem fourByteToUint32_bind {β : Type} (b : Memory) (p : ℕ) (k : UInt32 × ℕ → Option β)
    (u : β) : (fourByteToUint32 b p).bind k = some u ↔
      b.Defined p (p + 4) ∧ k (word32 b.byte p, p + 4) = some u :=
  bind_iff (fourByteToUint32_iff b p) k u

theorem decodeFloatingPointValue_bind {F D β : Type} [FloatArith F D] (b : Memory) (p : ℕ)
    (k : F × ℕ → Option β) (u : β) : (decodeFloatingPointValue b p).bind k = some u ↔
      b.Defined p (p + 4) ∧ k (float32 b.byte p, p + 4) = some u :=
  bind_iff (decodeFloatingPointValue_iff b p) k u

theorem word16_congr {m m' : ℕ → UInt8} {p : ℕ} (h : ∀ i, p ≤ i → i < p + 2 → m i = m' i) :
    word16 m p = word16 m' p := by
  simp only [word16, h p (by omega) (by omega), h (p + 1) (by omega) (by omega)]

theorem word24_congr {m m' : ℕ → UInt8} {p : ℕ} (h : ∀ i, p ≤ i → i < p + 3 → m i = m' i) :
    word24 m p = word24 m' p := by
  simp only [word24, h p (by omega) (by omega), h (p + 1) (by omega) (by omega),
    h (p + 2) (by omega) (by omega)]

theorem word32_congr {m m' : ℕ → UInt8} {p : ℕ} (h : ∀ i, p ≤ i → i < p + 4 → m i = m' i) :
    word32 m p = word32 m' p := by
  simp only [word32, h p (by omega) (by omega), h (p + 1) (by omega) (by omega),
    h (p + 2) (by omega) (by omega), h (p + 3) (by omega) (by omega)]

theorem float32_congr {F D : Type} [FloatArith F D] {m m' : ℕ → UInt8} {p : ℕ}
    (h : ∀ i, p ≤ i → i < p + 4 → m i = m' i) : (float32 m p : F) = float32 m' p :=
  congrArg FloatArith.ofBits (word32_congr h)

theorem word16_toNat (m : ℕ → UInt8) (p : ℕ) :
    (word16 m p).toNat = (m p).toNat * 256 + (m (p + 1)).toNat := by
  have h0 := (m p).toNat_lt
  have h1 := (m (p + 1)).toNat_lt
  simp only [word16, UInt16.toNat_add, UInt16.toNat_mul, UInt8.toNat_toUInt16]
  change ((m p).toNat * 256 % 2 ^ 16 + (m (p + 1)).toNat) % 2 ^ 16 = _
  omega

/-! The loops over the 16 bits of a word. -/

/-- `channel[k]` is changed by `mark` when the lowest bit of the word is set, and the
    word is shifted; `k` passes. -/
def markBits (mark : DigitalChannel → DigitalChannel) (channel : Fin 16 → DigitalChannel)
    (word : UInt16) : ℕ → (Fin 16 → DigitalChannel) × UInt16
  | 0 => (channel, word)
  | k + 1 =>
    let (channel, word) := markBits mark channel word k
    (if word &&& 1 = 1 then fun i => if i.val = k then mark (channel i) else channel i
      else channel, word >>> 1)

theorem lowBit_iff (w : UInt16) : w &&& 1 = 1 ↔ w.toNat.testBit 0 = true := by
  rw [← UInt16.toNat_inj, UInt16.toNat_and]
  change w.toNat &&& 1 = 1 ↔ _
  rw [Nat.and_one_is_mod, Nat.testBit_zero]
  simp

theorem shiftRight_one_toNat {w v : UInt16} {k : ℕ} (h : v.toNat = w.toNat >>> k) :
    (v >>> 1).toNat = w.toNat >>> (k + 1) := by
  rw [UInt16.toNat_shiftRight, h]
  exact (Nat.shiftRight_add w.toNat k 1).symm

/-- The words that `parseSTATWord` tests for its five flags: bit 9 and the bits behind it, one
    after the other, are shifted to the front. -/
theorem flagWords_toNat (w : UInt16) :
    (w >>> 4 >>> 2 >>> 3).toNat = w.toNat >>> 9 ∧
      (w >>> 4 >>> 2 >>> 3 >>> 1).toNat = w.toNat >>> 10 ∧
      (w >>> 4 >>> 2 >>> 3 >>> 1 >>> 1).toNat = w.toNat >>> 11 ∧
      (w >>> 4 >>> 2 >>> 3 >>> 1 >>> 1 >>> 1).toNat = w.toNat >>> 12 ∧
      (w >>> 4 >>> 2 >>> 3 >>> 1 >>> 1 >>> 1 >>> 1).toNat = w.toNat >>> 13 := by
  have h9 : (w >>> 4 >>> 2 >>> 3).toNat = w.toNat >>> 9 := by
    simp [UInt16.toNat_shiftRight, ← Nat.shiftRight_add]
  have h10 := shiftRight_one_toNat h9
  have h11 := shiftRight_one_toNat h10
  have h12 := shiftRight_one_toNat h11
  exact ⟨h9, h10, h11, h12, shiftRight_one_toNat h12⟩

theorem markBits_word (mark : DigitalChannel → DigitalChannel)
    (channel : Fin 16 → DigitalChannel) (w : UInt16) (k : ℕ) :
    (markBits mark channel w k).2.toNat = w.toNat >>> k := by
  induction k with
  | zero => rfl
  | succ k ih => exact shiftRight_one_toNat ih

theorem markBits_channel (mark : DigitalChannel → DigitalChannel)
    (channel : Fin 16 → DigitalChannel) (w : UInt16) (k : ℕ) (i : Fin 16) :
    (markBits mark channel w k).1 i =
      if i.val < k ∧ w.toNat.testBit i = true then mark (channel i) else channel i := by
  induction k with
  | zero => simp [markBits]
  | succ k ih =>
    have bit : (markBits mark channel w k).2 &&& 1 = 1 ↔ w.toNat.testBit k = true := by
      rw [lowBit_iff, markBits_word, Nat.testBit_shiftRight, Nat.add_zero]
    change (if (markBits mark channel w k).2 &&& 1 = 1 then
      fun i : Fin 16 => if i.val = k then mark ((markBits mark channel w k).1 i)
        else (markBits mark channel w k).1 i
      else (markBits mark channel w k).1) i = _
    simp only [bit]
    by_cases hk : i.val = k
    · subst hk
      by_cases hb : w.toNat.testBit i.val = true <;> simp [hb, ih]
    · have lt : i.val < k + 1 ↔ i.val < k := by omega
      by_cases hb : w.toNat.testBit k = true <;> simp [hb, hk, ih, lt]

end Khorjin
