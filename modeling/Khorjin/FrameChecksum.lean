import Khorjin.ShiftRegister
import Khorjin.WordDecoders

set_option autoImplicit false

namespace Khorjin
open ByteMemory LoopRules

def crcStep (crc : UInt16) (byte : UInt8) : UInt16 :=
  let temp := (crc >>> 8) ^^^ byte.toUInt16
  let crc := crc <<< 8
  let quick := temp ^^^ (temp >>> 4)
  let crc := crc ^^^ quick
  let quick := quick <<< 5
  let crc := crc ^^^ quick
  let quick := quick <<< 7
  crc ^^^ quick

def computeCRC (Message : Memory) (MessLen : UInt32) : Option UInt16 :=
  forLoop (fun i crc => (Message.read i).map (crcStep crc)) MessLen.toNat 0xFFFF

/-- `bufferSize - 2` is an `int` that becomes the unsigned length of the message. -/
def crcCheck (buffer : Memory) (bufferSize : ℤ) : Option Bool := do
  let crc ← computeCRC buffer (UInt32.ofInt (bufferSize - 2))
  let hi ← buffer.readInt (bufferSize - 2)
  let lo ← buffer.readInt (bufferSize - 1)
  some (crc == hi.toUInt16 * 256 + lo.toUInt16)

def crcOf (m : ℕ → UInt8) : ℕ → UInt16
  | 0 => 0xFFFF
  | n + 1 => crcStep (crcOf m n) (m n)

def appendChk (body : List UInt8) : List UInt8 :=
  let crc := crcOf (fun i => body.getD i 0) body.length
  body ++ [(crc / 256).toUInt8, (crc % 256).toUInt8]

theorem word_xor_pairs (a b c d : UInt16) :
    (a ^^^ b) ^^^ (c ^^^ d) = (a ^^^ c) ^^^ (b ^^^ d) := by
  apply UInt16.toBitVec_inj.1
  exact ShiftRegister.xor_pairs a.toBitVec b.toBitVec c.toBitVec d.toBitVec

/-- The checksum step is linear over bitwise exclusive or. -/
theorem crcStep_xor (c c' : UInt16) (b b' : UInt8) :
    crcStep (c ^^^ c') (b ^^^ b') = crcStep c b ^^^ crcStep c' b' := by
  have temp : (c ^^^ c') >>> 8 ^^^ (b ^^^ b').toUInt16 =
      (c >>> 8 ^^^ b.toUInt16) ^^^ (c' >>> 8 ^^^ b'.toUInt16) := by
    rw [UInt16.shiftRight_xor, UInt8.toUInt16_xor, word_xor_pairs]
  have quick : ∀ t t' : UInt16, (t ^^^ t') ^^^ (t ^^^ t') >>> 4 =
      (t ^^^ t >>> 4) ^^^ (t' ^^^ t' >>> 4) := by
    intro t t'
    rw [UInt16.shiftRight_xor, word_xor_pairs]
  simp only [crcStep, temp, quick, UInt16.shiftLeft_xor]
  rw [word_xor_pairs (c <<< 8), word_xor_pairs (c <<< 8 ^^^ _),
    word_xor_pairs (c <<< 8 ^^^ _ ^^^ _)]

theorem crcOf_congr {m m' : ℕ → UInt8} {n : ℕ} (h : ∀ i < n, m i = m' i) :
    crcOf m n = crcOf m' n := by
  induction n with
  | zero => rfl
  | succ n ih =>
    rw [crcOf, crcOf, ih (fun i hi => h i (by omega)), h n (by omega)]

theorem computeCRC_iff (b : Memory) (n : UInt32) (c : UInt16) :
    computeCRC b n = some c ↔ b.Defined 0 n.toNat ∧ crcOf b.byte n.toNat = c := by
  have step : ∀ j < n.toNat, ∀ u, (b.read j).map (crcStep (crcOf b.byte j)) = some u ↔
      b.Defined j (j + 1) ∧ crcOf b.byte (j + 1) = u := by
    intro j _ u
    simp only [Option.map_eq_some_iff, Memory.read_iff, crcOf]
    constructor
    · rintro ⟨_, ⟨h, rfl⟩, rfl⟩
      exact ⟨h, rfl⟩
    · rintro ⟨h, rfl⟩
      exact ⟨_, ⟨h, rfl⟩, rfl⟩
  have blocks := Memory.defined_blocks b 0 1 n.toNat
  simp only [Nat.zero_add, Nat.one_mul] at blocks
  rw [← blocks]
  exact forLoop_iff (crcOf b.byte) (fun i => b.Defined i (i + 1)) n.toNat step c

theorem crcCheck_two_le {b : Memory} {bufferSize : ℤ} {v : Bool}
    (h : crcCheck b bufferSize = some v) : 2 ≤ bufferSize := by
  simp only [crcCheck, Option.bind_eq_bind, Option.bind_eq_some_iff] at h
  obtain ⟨_, _, hi, read, _⟩ := h
  by_contra short
  rw [Memory.readInt, if_neg (by omega)] at read
  cases read

theorem messageLength (n : ℕ) (h2 : 2 ≤ n) (h : n < 2 ^ 31) :
    (UInt32.ofInt ((n : ℤ) - 2)).toNat = n - 2 := by
  rw [UInt32.ofInt, UInt32.toNat_ofNat']
  omega

theorem crcCheck_iff (b : Memory) (n : ℕ) (h2 : 2 ≤ n) (h : n < 2 ^ 31) (v : Bool) :
    crcCheck b n = some v ↔
      b.Defined 0 n ∧ decide (crcOf b.byte (n - 2) = word16 b.byte (n - 2)) = v := by
  have hi : b.readInt ((n : ℤ) - 2) = b.read (n - 2) := by
    rw [← Memory.readInt_natCast]
    congr 1
    omega
  have lo : b.readInt ((n : ℤ) - 1) = b.read (n - 2 + 1) := by
    rw [← Memory.readInt_natCast]
    congr 1
    omega
  rw [← Memory.defined_append (p := 0) (q := n - 2) (r := n) (by omega) (by omega)]
  have last : b.Defined (n - 2) n ↔
      b.Defined (n - 2) (n - 2 + 1) ∧ b.Defined (n - 2 + 1) (n - 2 + 1 + 1) := by
    rw [Memory.defined_append (by omega) (by omega), show n - 2 + 1 + 1 = n by omega]
  rw [last]
  simp only [crcCheck, hi, lo, Option.bind_eq_bind, bind_iff (computeCRC_iff b _),
    messageLength n h2 h, Memory.read_bind, Option.some.injEq, and_assoc]
  rfl

end Khorjin
