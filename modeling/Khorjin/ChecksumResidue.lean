import Khorjin.CommandFrames
import Khorjin.ErrorDetection

set_option autoImplicit false

/-!
# The checksum of a sealed frame

Run over a frame together with its two CHK bytes, the checksum register ends at zero,
and no other two bytes lead it there.
-/
namespace Khorjin
open ByteMemory LoopRules ShiftRegister

theorem crcOf_eq_zero_iff (m : ℕ → UInt8) {n : ℕ} (h2 : 2 ≤ n) :
    crcOf m n = 0 ↔ crcOf m (n - 2) = word16 m (n - 2) := by
  have register : (crcOf m n).toBitVec = feedBits crcPolynomial 0xFFFF (frameBits m n) := by
    rw [crcOf_eq_crcCCITT, crcCCITT, messageBits_range]
  rw [← UInt16.toBitVec_inj, register]
  exact remainder_eq_zero_iff m n h2

theorem crcCheck_iff_zero_residue (b : Memory) {n : ℕ} (h2 : 2 ≤ n) (h : n < 2 ^ 31) :
    crcCheck b n = some true ↔ computeCRC b (UInt32.ofNat n) = some 0 := by
  have length : (UInt32.ofNat n).toNat = n :=
    UInt32.toNat_ofNat_of_lt' (show n < 2 ^ 32 by omega)
  rw [crcCheck_iff b n h2 h, computeCRC_iff, length, decide_eq_true_iff, crcOf_eq_zero_iff _ h2]

def chkBytes (crc : UInt16) : UInt8 × UInt8 := ((crc / 256).toUInt8, (crc % 256).toUInt8)

theorem word_eq_iff_chkBytes (crc : UInt16) (hi lo : UInt8) :
    crc = hi.toUInt16 * 0x100 + lo.toUInt16 ↔ (hi, lo) = chkBytes crc := by
  have hhi := hi.toNat_lt
  have hlo := lo.toNat_lt
  have lt := crc.toNat_lt
  have e : (256 : UInt16).toNat = 256 := rfl
  have word : (hi.toUInt16 * 0x100 + lo.toUInt16).toNat = hi.toNat * 256 + lo.toNat := by
    simp only [UInt16.toNat_add, UInt16.toNat_mul, UInt8.toNat_toUInt16]
    change (hi.toNat * 256 % 2 ^ 16 + lo.toNat) % 2 ^ 16 = _
    omega
  have high : (crc / 256).toUInt8.toNat = crc.toNat / 256 := by
    rw [UInt16.toNat_toUInt8, UInt16.toNat_div, e]
    omega
  have low : (crc % 256).toUInt8.toNat = crc.toNat % 256 := by
    rw [UInt16.toNat_toUInt8, UInt16.toNat_mod, e]
    omega
  rw [chkBytes, Prod.mk.injEq, ← UInt8.toNat_inj, ← UInt8.toNat_inj, high, low,
    ← UInt16.toNat_inj, word]
  omega

theorem computeCRC_sent (message : List UInt8) (counted : message.length < 2 ^ 31) :
    computeCRC (sent message) (UInt32.ofNat message.length) =
      some (crcOf (fun i => message.getD i 0) message.length) := by
  have length : (UInt32.ofNat message.length).toNat = message.length :=
    UInt32.toNat_ofNat_of_lt' (show message.length < 2 ^ 32 by omega)
  rw [computeCRC_iff, length]
  exact ⟨Memory.zeroFilled_defined _ (le_refl _), crcOf_of_holds (holds_zeroFilled (le_refl _))⟩

theorem crcCheck_sealed_iff (message : List UInt8) (counted : message.length + 2 < 2 ^ 31)
    (hi lo : UInt8) :
    crcCheck (sent (message ++ [hi, lo])) ((message.length + 2 : ℕ) : ℤ) = some true ↔
      (hi, lo) = chkBytes (crcOf (fun i => message.getD i 0) message.length) := by
  have size : (message ++ [hi, lo]).length = message.length + 2 := by simp
  have mapped : (sent (message ++ [hi, lo])).Defined 0 (message.length + 2) :=
    Memory.zeroFilled_defined _ (by omega)
  have stored := holds_zeroFilled (le_refl (message ++ [hi, lo]).length)
  rw [holds_append_iff, Nat.zero_add] at stored
  obtain ⟨front, chk⟩ := stored
  have first : (sent (message ++ [hi, lo])).byte message.length = hi := chk 0 _ rfl
  have second : (sent (message ++ [hi, lo])).byte (message.length + 1) = lo := chk 1 _ rfl
  have register : crcOf (sent (message ++ [hi, lo])).byte message.length =
      crcOf (fun i => message.getD i 0) message.length := crcOf_of_holds front
  rw [crcCheck_iff _ _ (by omega) counted, and_iff_right mapped, decide_eq_true_iff,
    Nat.add_sub_cancel, register, word16, first, second]
  exact word_eq_iff_chkBytes _ hi lo

section
variable {F D : Type} [Platform F D]

/-- A command is its first 16 bytes, sealed. -/
theorem commandFrame_sealed (self : Client F) (timeStamp : UInt64) (cmd : UInt8) :
    ∃ message crc, message.length = 16 ∧ computeCRC (sent message) 16 = some crc ∧
      commandFrame self timeStamp cmd = message ++ [(chkBytes crc).1, (chkBytes crc).2] := by
  have register := computeCRC_sent ([0xAA, 0x41, 0x00, 0x12, (self.idcode / 256).toUInt8,
    (self.idcode % 256).toUInt8] ++ encodeUInt32FixedSize (timeStamp / 1000).toUInt32 ++
    encodeUInt32FixedSize (timeStamp % 1000).toUInt32 ++ [0x00, cmd])
    (show 16 < 2 ^ 31 by decide)
  exact ⟨_, _, rfl, register, rfl⟩

/-- The check of the trailing checksum accepts exactly the frames over which the checksum
    is zero. Behind any message these are the ones that end in the two bytes which the
    encoders append. -/
theorem checksum_accepts_zero_residue :
    (∀ (b : Memory) (n : ℕ), 2 ≤ n → n < 2 ^ 31 →
      (crcCheck b n = some true ↔ computeCRC b (UInt32.ofNat n) = some 0)) ∧
    (∀ message : List UInt8, message.length + 2 < 2 ^ 31 →
      ∃ crc, computeCRC (sent message) (UInt32.ofNat message.length) = some crc ∧
        ∀ hi lo, crcCheck (sent (message ++ [hi, lo])) ((message.length + 2 : ℕ) : ℤ) = some true ↔
          hi = (crc / 256).toUInt8 ∧ lo = (crc % 256).toUInt8) ∧
    ∀ (self : Client F) (timeStamp : UInt64) (cmd : UInt8),
      ∃ message crc, message.length = 16 ∧ computeCRC (sent message) 16 = some crc ∧
        commandFrame self timeStamp cmd =
          message ++ [(crc / 256).toUInt8, (crc % 256).toUInt8] := by
  refine ⟨fun b n h2 h => crcCheck_iff_zero_residue b h2 h, ?_, commandFrame_sealed⟩
  intro message counted
  refine ⟨_, computeCRC_sent message (by omega), fun hi lo => ?_⟩
  rw [crcCheck_sealed_iff message counted hi lo, chkBytes, Prod.mk.injEq]

end

section
attribute [local instance] ExactRational.platform

theorem sealedFrame_has_no_residue :
    computeCRC (Memory.zeroFilled BUFER_LENGTH sealedFrame) 5 = some 0 :=
  ((checksum_accepts_zero_residue (F := ℚ)).1 _ 5 (by decide) (by decide)).1 (by decide +kernel)

end
end Khorjin
