import Khorjin.FrameChecksum
import Khorjin.ShiftRegister

set_option autoImplicit false

/-!
# What the checksum is, and which errors it detects

The checksum loop takes a byte at a time. It computes the remainder of bit-serial
division by the CCITT polynomial, and a frame passes its check when the frame as a
whole leaves no remainder.
-/
namespace Khorjin
open ByteMemory LoopRules ShiftRegister

def crcPolynomial : BitVec 16 := 0x1021

def messageBits (message : List UInt8) : List Bool :=
  message.flatMap (fun byte => bitsBE byte.toBitVec)

/-- CRC-CCITT as it is defined: the bits of the message one after the other. -/
def crcCCITT (message : List UInt8) : UInt16 :=
  .ofBitVec (feedBits crcPolynomial 0xFFFF (messageBits message))

/-- One byte of the loop is eight bits of the division. Both are linear, which leaves the
    24 words with a single bit. -/
theorem crcStep_eq_feedBits (c : UInt16) (byte : UInt8) :
    (crcStep c byte).toBitVec = feedBits crcPolynomial c.toBitVec (bitsBE byte.toBitVec) := by
  have register : ∀ c : BitVec 16, (crcStep (.ofBitVec c) 0).toBitVec =
      feedBits crcPolynomial c (bitsBE (0 : BitVec 8)) := by
    refine additive_ext (fun x y => ?_) (fun x y => ?_) (by decide)
    · exact congrArg UInt16.toBitVec (crcStep_xor (.ofBitVec x) (.ofBitVec y) 0 0)
    · have h := feedBits_xor crcPolynomial x y (bitsBE (0 : BitVec 8)) (bitsBE 0) rfl
      rwa [← bitsBE_xor] at h
  have data : ∀ byte : BitVec 8, (crcStep 0 (.ofBitVec byte)).toBitVec =
      feedBits crcPolynomial 0 (bitsBE byte) := by
    refine additive_ext (fun x y => ?_) (fun x y => ?_) (by decide)
    · exact congrArg UInt16.toBitVec (crcStep_xor 0 0 (.ofBitVec x) (.ofBitVec y))
    · have h := feedBits_xor crcPolynomial 0 0 (bitsBE x) (bitsBE y) (by simp)
      rwa [← bitsBE_xor] at h
  have split := crcStep_xor c 0 0 byte
  rw [UInt16.xor_zero, UInt8.zero_xor] at split
  have join := feedBits_xor crcPolynomial c.toBitVec 0 (bitsBE (0 : BitVec 8))
    (bitsBE byte.toBitVec) (by simp)
  have register_zero : c.toBitVec ^^^ 0 = c.toBitVec := BitVec.xor_zero
  have data_zero : 0 ^^^ byte.toBitVec = byte.toBitVec := BitVec.zero_xor
  rw [← bitsBE_xor, register_zero, data_zero] at join
  rw [split, UInt16.toBitVec_xor, join, ← register, ← data]

theorem crcOf_eq_crcCCITT (m : ℕ → UInt8) (n : ℕ) :
    crcOf m n = crcCCITT ((List.range n).map m) := by
  induction n with
  | zero => rfl
  | succ n ih =>
    apply UInt16.toBitVec_inj.1
    rw [crcOf, crcStep_eq_feedBits, ih, List.range_succ, List.map_append]
    simp only [crcCCITT, messageBits, List.flatMap_append, feedBits_append, List.map_cons,
      List.map_nil, List.flatMap_cons, List.flatMap_nil, List.append_nil]

/-- The checksum loop computes CRC-CCITT of every message whose length an `int` counts. -/
theorem computeCRC_eq_crcCCITT (Message : Memory) (message : List UInt8)
    (stored : ∀ i x, message[i]? = some x → Message.read i = some x)
    (counted : message.length ≤ 2 ^ 31 - 1) :
    computeCRC Message (UInt32.ofNat message.length) = some (crcCCITT message) := by
  have length : (UInt32.ofNat message.length).toNat = message.length :=
    UInt32.toNat_ofNat_of_lt' (show message.length < 2 ^ 32 by omega)
  have bytes : (List.range message.length).map Message.byte = message := by
    have each : ∀ i x, message[i]? = some x → Message.byte i = id x := by
      intro i x hx
      simp [Memory.byte, stored i x hx]
    rw [map_range_eq_map rfl each, List.map_id]
  rw [computeCRC_iff, length, crcOf_eq_crcCCITT, bytes]
  refine ⟨fun i _ hi => ?_, rfl⟩
  rw [stored i _ (List.getElem?_eq_getElem hi)]
  rfl

def digits : List UInt8 := [49, 50, 51, 52, 53, 54, 55, 56, 57]

theorem digits_have_crc_29B1 :
    computeCRC (Memory.zeroFilled BUFER_LENGTH digits) (UInt32.ofNat digits.length) =
      some (crcCCITT digits) ∧ crcCCITT digits = 0x29B1 := by
  refine ⟨computeCRC_eq_crcCCITT _ digits (fun i x hx => ?_) (by decide), by decide +kernel⟩
  have lt := (List.getElem?_eq_some_iff.1 hx).choose
  have length : digits.length = 9 := rfl
  have mapped : i < BUFER_LENGTH := by
    unfold BUFER_LENGTH
    omega
  simp [Memory.zeroFilled, mapped, List.getD_eq_getElem?_getD, hx]

def bitAt (m : ℕ → UInt8) (j : ℕ) : Bool := (m (j / 8)).toBitVec.getMsbD (j % 8)

def frameBits (m : ℕ → UInt8) (n : ℕ) : List Bool := (List.range (8 * n)).map (bitAt m)

/-- Where two frames of `n` bytes differ. -/
def flippedBits (m m' : ℕ → UInt8) (n : ℕ) : List ℕ :=
  (List.range (8 * n)).filter (fun j => bitAt m j != bitAt m' j)

theorem frameBits_succ (m : ℕ → UInt8) (n : ℕ) :
    frameBits m (n + 1) = frameBits m n ++ bitsBE (m n).toBitVec := by
  rw [frameBits, Nat.mul_succ, List.range_add, List.map_append, List.map_map]
  congr 1
  apply List.map_congr_left
  intro i hi
  have lt := List.mem_range.1 hi
  have byte : (8 * n + i) / 8 = n := by omega
  have bit : (8 * n + i) % 8 = i := by omega
  rw [Function.comp_apply, bitAt, byte, bit]

theorem messageBits_range (m : ℕ → UInt8) (n : ℕ) :
    messageBits ((List.range n).map m) = frameBits m n := by
  induction n with
  | zero => rfl
  | succ n ih =>
    rw [frameBits_succ, ← ih, List.range_succ, List.map_append]
    simp only [messageBits, List.flatMap_append, List.map_cons, List.map_nil, List.flatMap_cons,
      List.flatMap_nil, List.append_nil]

theorem word16_toBitVec (m : ℕ → UInt8) (p : ℕ) :
    (word16 m p).toBitVec = (m p).toBitVec ++ (m (p + 1)).toBitVec := by
  apply BitVec.eq_of_toNat_eq
  have lt : (m (p + 1)).toBitVec.toNat < 2 ^ 8 := (m (p + 1)).toBitVec.isLt
  have value : (word16 m p).toBitVec.toNat = (m p).toNat * 256 + (m (p + 1)).toNat :=
    word16_toNat m p
  rw [value, BitVec.toNat_append, ← Nat.shiftLeft_add_eq_or_of_lt lt, Nat.shiftLeft_eq]
  rfl

theorem crcPolynomial_odd : crcPolynomial.getLsbD 0 = true := by decide

theorem remainder_eq_zero_iff (m : ℕ → UInt8) (n : ℕ) (h2 : 2 ≤ n) :
    feedBits crcPolynomial 0xFFFF (frameBits m n) = 0 ↔
      crcOf m (n - 2) = word16 m (n - 2) := by
  have message : feedBits crcPolynomial 0xFFFF (frameBits m (n - 2)) =
      (crcOf m (n - 2)).toBitVec := by
    rw [crcOf_eq_crcCCITT, crcCCITT, messageBits_range]
  have chk : frameBits m n = frameBits m (n - 2) ++ bitsBE (word16 m (n - 2)).toBitVec := by
    rw [word16_toBitVec, bitsBE_append, ← List.append_assoc, ← frameBits_succ, ← frameBits_succ,
      show n - 2 + 1 + 1 = n by omega]
  rw [chk, feedBits_append, message, feedBits_bitsBE_iff crcPolynomial_odd]
  exact UInt16.toBitVec_inj

theorem crcCheck_remainder_iff {b : Memory} {n : ℕ} (h2 : 2 ≤ n) (h : n < 2 ^ 31)
    (mapped : b.Defined 0 n) (v : Bool) : crcCheck b n = some v ↔
      decide (feedBits crcPolynomial 0xFFFF (frameBits b.byte n) = 0) = v := by
  simp only [crcCheck_iff b n h2 h, and_iff_right mapped, remainder_eq_zero_iff b.byte n h2]

def errorBits (m m' : ℕ → UInt8) (n : ℕ) : List Bool :=
  (List.range (8 * n)).map (fun j => bitAt m j ^^ bitAt m' j)

theorem error_remainder {m m' : ℕ → UInt8} {n : ℕ}
    (h : feedBits crcPolynomial 0xFFFF (frameBits m n) = 0)
    (h' : feedBits crcPolynomial 0xFFFF (frameBits m' n) = 0) :
    feedBits crcPolynomial 0 (errorBits m m' n) = 0 := by
  have sum := feedBits_xor crcPolynomial 0xFFFF 0xFFFF (frameBits m n) (frameBits m' n)
    (by simp [frameBits])
  rw [h, h', BitVec.xor_self, frameBits, frameBits, List.zipWith_map, List.zipWith_self] at sum
  exact sum

/-- An error that the generator does not divide is detected. -/
theorem crcCheck_of_error {b b' : Memory} {n : ℕ} (two_le : 2 ≤ n) (lt : n < 2 ^ 31)
    (valid : crcCheck b n = some true) (mapped : b'.Defined 0 n)
    (error : feedBits crcPolynomial 0 (errorBits b.byte b'.byte n) ≠ 0) :
    crcCheck b' n = some false := by
  have mapped_b := ((crcCheck_iff b n two_le lt true).1 valid).1
  have remainder := of_decide_eq_true ((crcCheck_remainder_iff two_le lt mapped_b true).1 valid)
  rw [crcCheck_remainder_iff two_le lt mapped, decide_eq_false_iff_not]
  intro remainder'
  exact error (error_remainder remainder remainder')

theorem errorBits_get_iff (m m' : ℕ → UInt8) (n j : ℕ) :
    (errorBits m m' n)[j]? = some true ↔ j ∈ flippedBits m m' n := by
  by_cases hj : j < 8 * n <;> simp [errorBits, flippedBits, hj]

theorem errorBits_count (m m' : ℕ → UInt8) (n : ℕ) :
    (errorBits m m' n).count true = (flippedBits m m' n).length := by
  rw [errorBits, flippedBits, List.count_eq_countP, List.countP_map, List.countP_eq_length_filter]
  congr 1
  apply List.filter_congr
  intro j _
  change ((bitAt m j ^^ bitAt m' j) == true) = (bitAt m j != bitAt m' j)
  cases bitAt m j <;> cases bitAt m' j <;> rfl

theorem flippedBits_of_byte_ne {m m' : ℕ → UInt8} {n i : ℕ} (hi : i < n) (differ : m i ≠ m' i) :
    ∃ j, j ∈ flippedBits m m' n := by
  by_contra none
  apply differ
  apply UInt8.toBitVec_inj.1
  apply BitVec.eq_of_getMsbD_eq
  intro k hk
  by_contra bit
  apply none
  have byte : (8 * i + k) / 8 = i := by omega
  have rest : (8 * i + k) % 8 = k := by omega
  refine ⟨8 * i + k, List.mem_filter.2 ⟨List.mem_range.2 (by omega), ?_⟩⟩
  simpa [bitAt, byte, rest] using bit

theorem crcCheck_detects_short_bursts {b b' : Memory} {n k : ℕ} (two_le : 2 ≤ n) (lt : n < 2 ^ 31)
    (valid : crcCheck b n = some true) (mapped : b'.Defined 0 n)
    (differ : ∃ i < n, b.byte i ≠ b'.byte i)
    (window : ∀ j ∈ flippedBits b.byte b'.byte n, k ≤ j ∧ j < k + 16) :
    crcCheck b' n = some false := by
  refine crcCheck_of_error two_le lt valid mapped (fun divides => ?_)
  obtain ⟨i, hi, hne⟩ := differ
  obtain ⟨j, hj⟩ := flippedBits_of_byte_ne hi hne
  have ones : ∀ j : ℕ, (errorBits b.byte b'.byte n)[j]? = some true → k ≤ j ∧ j < k + 16 :=
    fun j hj => window j ((errorBits_get_iff _ _ n j).1 hj)
  exact burst_has_remainder crcPolynomial_odd ones divides j ((errorBits_get_iff _ _ n j).2 hj)

def sealedFrame : List UInt8 := appendChk [0xAA, 0x41, 0x07]

def spoilt (error : List UInt8) : Memory :=
  Memory.zeroFilled BUFER_LENGTH (List.zipWith (fun x e => x ^^^ e) sealedFrame error)

/-- The error straddles the border between the message and its checksum. -/
theorem burst_across_chk_detected :
    crcCheck (spoilt [0, 0, 0x03, 0xC1, 0]) (5 : ℕ) = some false :=
  crcCheck_detects_short_bursts (b := Memory.zeroFilled BUFER_LENGTH sealedFrame) (k := 22)
    (by decide) (by decide) (by decide +kernel) (Memory.zeroFilled_defined _ (by decide))
    (by decide +kernel) (by decide +kernel)

theorem crcCheck_detects_odd_weight {b b' : Memory} {n : ℕ} (two_le : 2 ≤ n) (lt : n < 2 ^ 31)
    (valid : crcCheck b n = some true) (mapped : b'.Defined 0 n)
    (odd : Odd (flippedBits b.byte b'.byte n).length) : crcCheck b' n = some false := by
  refine crcCheck_of_error two_le lt valid mapped (fun divides => ?_)
  have even := parity_of_no_remainder (by decide) divides
  rw [← errorBits_count, ← parity_eq_true_iff, even] at odd
  simp at odd

theorem three_scattered_bits_detected :
    crcCheck (spoilt [0x80, 0, 0x10, 0, 0x01]) (5 : ℕ) = some false :=
  crcCheck_detects_odd_weight (b := Memory.zeroFilled BUFER_LENGTH sealedFrame)
    (by decide) (by decide) (by decide +kernel) (Memory.zeroFilled_defined _ (by decide))
    (by decide +kernel)

end Khorjin
