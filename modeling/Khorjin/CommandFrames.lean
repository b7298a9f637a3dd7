import Khorjin.ClientCalls
import Khorjin.ConfigurationRoundTrip

set_option autoImplicit false

/-!
# Command frames

What the client's own decoders read in the frames that its three commands write.
-/
namespace Khorjin
open ByteMemory LoopRules
variable {F D : Type} [Platform F D]

def sent (frame : List UInt8) : Memory := Memory.zeroFilled frame.length frame

/-- A frame of 18 bytes that tells the PMU `id`, at `timeStamp` milliseconds, to carry out
    the command `command`. -/
structure DecodesTo (frame : List UInt8) (id : UInt16) (timeStamp : UInt64) (command : UInt16) :
    Prop where
  length : frame.length = 18
  sync : twoByteToUint16 (sent frame) 0 = some (0xAA41, 2)
  frameSize : ∃ size, twoByteToUint16 (sent frame) 2 = some (size, 4) ∧
    size.toNat = frame.length
  idcode : twoByteToUint16 (sent frame) 4 = some (id, 6)
  time : ∃ soc fracsec, fourByteToUint32 (sent frame) 6 = some (soc, 10) ∧
    fourByteToUint32 (sent frame) 10 = some (fracsec, 14) ∧
    soc.toNat * 1000 + fracsec.toNat = timeStamp.toNat
  timeQuality : (sent frame).read 10 = some 0
  cmd : twoByteToUint16 (sent frame) 14 = some (command, 16)
  chk : crcCheck (sent frame) (18 : ℕ) = some true

theorem commandFrame_length (self : Client F) (timeStamp : UInt64) (cmd : UInt8) :
    (commandFrame self timeStamp cmd).length = 18 := by
  rw [commandFrame, appendChk_length]
  rfl

theorem lowByte (w : UInt16) : (w % 256).toUInt8 = w.toUInt8 := by
  apply UInt8.toNat_inj.1
  have e : (256 : UInt16).toNat = 256 := rfl
  rw [UInt16.toNat_toUInt8, UInt16.toNat_toUInt8, UInt16.toNat_mod, e]
  omega

theorem splitTime {timeStamp : UInt64} (h : timeStamp.toNat / 1000 < 2 ^ 32) :
    (timeStamp / 1000).toUInt32.toNat = timeStamp.toNat / 1000 ∧
      (timeStamp % 1000).toUInt32.toNat = timeStamp.toNat % 1000 := by
  have e : (1000 : UInt64).toNat = 1000 := rfl
  rw [UInt64.toNat_toUInt32, UInt64.toNat_toUInt32, UInt64.toNat_div, UInt64.toNat_mod, e]
  omega

theorem command_of_holds {m : ℕ → UInt8} {self : Client F} {timeStamp : UInt64} {cmd : UInt8}
    (h : Holds m 0 (commandFrame self timeStamp cmd)) :
    word16 m 0 = 0xAA41 ∧ word16 m 2 = 18 ∧ word16 m 4 = self.idcode ∧
      Holds m 6 (encode32 (timeStamp / 1000).toUInt32) ∧
      Holds m 10 (encode32 (timeStamp % 1000).toUInt32) ∧
      word16 m 14 = cmd.toUInt16 ∧ crcOf m 16 = word16 m 16 := by
  obtain ⟨body, chk⟩ := appendChk_of_holds h
  simp only [holds_append_iff, List.length_append, Nat.zero_add] at body
  obtain ⟨⟨⟨head, soc⟩, fracsec⟩, tail⟩ := body
  simp only [holds_cons_iff, lowByte] at head
  obtain ⟨h0, h1, h2, h3, h4, h5, _⟩ := head
  have tail : Holds m 14 [0x00, cmd] := tail
  simp only [holds_cons_iff] at tail
  obtain ⟨h14, h15, _⟩ := tail
  refine ⟨?_, ?_, ?_, soc, fracsec, ?_, chk⟩
  · rw [word16, h0, h1]
    rfl
  · rw [word16, h2, h3]
    rfl
  · apply word16_of_holds
    simp only [encode16, holds_cons_iff]
    exact ⟨h4, h5, holds_nil _ _⟩
  · rw [word16, h14, h15]
    simp

theorem commandFrame_decodes (self : Client F) {timeStamp : UInt64}
    (h : timeStamp.toNat / 1000 < 2 ^ 32) (cmd : UInt8) :
    DecodesTo (commandFrame self timeStamp cmd) self.idcode timeStamp cmd.toUInt16 := by
  have length := commandFrame_length self timeStamp cmd
  have stored := holds_zeroFilled (le_refl (commandFrame self timeStamp cmd).length)
  obtain ⟨sync, size, id, soc, fracsec, command, crc⟩ := command_of_holds stored
  obtain ⟨seconds, rest⟩ := splitTime h
  have read : ∀ {p q : ℕ}, q ≤ 18 → (sent (commandFrame self timeStamp cmd)).Defined p q :=
    fun hq => Memory.zeroFilled_defined _ (by omega)
  constructor
  case length => exact length
  case sync => exact (twoByteToUint16_iff _ _ _).2 ⟨read (by omega), congrArg (·, 2) sync⟩
  case frameSize =>
    refine ⟨18, (twoByteToUint16_iff _ _ _).2 ⟨read (by omega), congrArg (·, 4) size⟩, ?_⟩
    rw [length]
    rfl
  case idcode => exact (twoByteToUint16_iff _ _ _).2 ⟨read (by omega), congrArg (·, 6) id⟩
  case time =>
    refine ⟨_, _, (fourByteToUint32_iff _ _ _).2 ⟨read (by omega), rfl⟩,
      (fourByteToUint32_iff _ _ _).2 ⟨read (by omega), rfl⟩, ?_⟩
    rw [sent, word32_of_holds soc, word32_of_holds fracsec, seconds, rest]
    omega
  case timeQuality =>
    have high := (encode32_bytes fracsec).1
    rw [rest] at high
    refine (Memory.read_iff _ _ _).2 ⟨read (by omega), UInt8.toNat_inj.1 (high.trans ?_)⟩
    change timeStamp.toNat % 1000 / 16777216 = 0
    omega
  case cmd => exact (twoByteToUint16_iff _ _ _).2 ⟨read (by omega), congrArg (·, 16) command⟩
  case chk =>
    exact (crcCheck_iff _ 18 (by omega) (by omega) true).2
      ⟨read (by omega), decide_eq_true crc⟩

theorem commandFrame_front {self self' : Client F} (same : self.idcode = self'.idcode)
    (timeStamp : UInt64) (cmd cmd' : UInt8) {i : ℕ} (hi : i < 14) :
    (commandFrame self timeStamp cmd)[i]? = (commandFrame self' timeStamp cmd')[i]? := by
  have front : ∀ (s : Client F) (cmd : UInt8), ∃ tail, commandFrame s timeStamp cmd =
      ([0xAA, 0x41, 0x00, 0x12, (s.idcode / 256).toUInt8, (s.idcode % 256).toUInt8] ++
        encodeUInt32FixedSize (timeStamp / 1000).toUInt32 ++
        encodeUInt32FixedSize (timeStamp % 1000).toUInt32) ++ tail :=
    fun s cmd => ⟨_, List.append_assoc _ _ _⟩
  obtain ⟨tail, h⟩ := front self cmd
  obtain ⟨tail', h'⟩ := front self' cmd'
  rw [h, h', same]
  exact (List.getElem?_append_left hi).trans (List.getElem?_append_left hi).symm

theorem clearedBuffer_take (frame : List UInt8) :
    (clearedBuffer frame).take frame.length = frame := by
  simp [clearedBuffer]

/-- The request goes out before anything is read, whatever then comes in. -/
theorem getConfiguration_eq (self : Client F) (timeStamp : UInt64) (reads : List SocketRead) :
    getConfiguration self timeStamp reads =
      (readLoop reads).bind fun (sResult, data, rest) =>
        (receiveConfiguration (requestConfiguration self timeStamp).2 data sResult).map
          fun (r, final) => ((requestConfiguration self timeStamp).1, r, final, rest) := by
  cases h : readLoop reads with
  | none => simp [getConfiguration, h]
  | some next =>
    obtain ⟨sResult, data, rest⟩ := next
    cases call : receiveConfiguration (requestConfiguration self timeStamp).2 data sResult with
    | none => simp [getConfiguration, h, call]
    | some r => simp [getConfiguration, h, call]

/-- The three commands of a client decode to what is meant, and those of clients with one
    id code differ only from the command word on. -/
theorem commands_decode_to_what_is_meant (self : Client F) (timeStamp : UInt64)
    (h : timeStamp.toNat / 1000 < 2 ^ 32) :
    (DecodesTo (stopTransmission self timeStamp).1 self.idcode timeStamp 1 ∧
        DecodesTo (startTransmission self timeStamp).1 self.idcode timeStamp 2 ∧
        DecodesTo (requestConfiguration self timeStamp).1 self.idcode timeStamp 5) ∧
      ((stopTransmission self timeStamp).2.bufferSnd.take 18 = (stopTransmission self timeStamp).1 ∧
        (startTransmission self timeStamp).2.bufferSnd.take 18 =
          (startTransmission self timeStamp).1 ∧
        (requestConfiguration self timeStamp).2.bufferSnd.take 18 =
          (requestConfiguration self timeStamp).1) ∧
      (∀ reads, getConfiguration self timeStamp reads =
        (readLoop reads).bind fun (sResult, data, rest) =>
          (receiveConfiguration (requestConfiguration self timeStamp).2 data sResult).map
            fun (r, final) => ((requestConfiguration self timeStamp).1, r, final, rest)) ∧
      ∀ self' self'' : Client F, self'.idcode = self.idcode → self''.idcode = self.idcode →
        ∀ i < 14,
          (stopTransmission self timeStamp).1[i]? = (startTransmission self' timeStamp).1[i]? ∧
          (stopTransmission self timeStamp).1[i]? =
            (requestConfiguration self'' timeStamp).1[i]? := by
  refine ⟨⟨?_, ?_, ?_⟩, ⟨?_, ?_, ?_⟩, ?_, ?_⟩
  · exact commandFrame_decodes self h 0x01
  · exact commandFrame_decodes self h 0x02
  · exact commandFrame_decodes self h 0x05
  · exact commandFrame_length self timeStamp 0x01 ▸ clearedBuffer_take _
  · exact commandFrame_length self timeStamp 0x02 ▸ clearedBuffer_take _
  · exact commandFrame_length self timeStamp 0x05 ▸ clearedBuffer_take _
  · intro reads
    exact getConfiguration_eq self timeStamp reads
  · intro self' self'' same' same'' i hi
    exact ⟨commandFrame_front same'.symm timeStamp _ _ hi,
      commandFrame_front same''.symm timeStamp _ _ hi⟩

section
attribute [local instance] ExactRational.platform

theorem commands_of_client_221_decode :
    let self : Client ℚ := Client.fresh 221 1000 [] []
    DecodesTo (stopTransmission self 1700000000123).1 221 1700000000123 1 ∧
      DecodesTo (startTransmission self 1700000000123).1 221 1700000000123 2 ∧
      DecodesTo (requestConfiguration self 1700000000123).1 221 1700000000123 5 :=
  (commands_decode_to_what_is_meant (Client.fresh 221 1000 [] []) 1700000000123 (by decide)).1

end
end Khorjin
