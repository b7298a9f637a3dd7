import Khorjin.ClientRuns
import Khorjin.DataFields
import Khorjin.DataLocality
import Khorjin.ConfigurationLocality

set_option autoImplicit false

/-!
# How far the parsers read

Neither parser compares the counts that drive its cursor with the length of the
frame. What a parser reads is bounded here by running it on the memory cut off
behind that bound, where any further read would be undefined.
-/
namespace Khorjin
open ByteMemory LoopRules
variable {F D : Type} [Platform F D]

theorem below_agrees (b : Memory) (n : ℕ) : SameBytes (b.below n).byte b.byte 0 n :=
  fun _ _ h => b.below_byte h

theorem FramePasses.congr {sync : UInt8} {idcode : UInt16} {m m' : ℕ → UInt8} {n q : ℕ}
    (h : SameBytes m m' 0 q) (h2 : 2 ≤ n) (hn : n ≤ q) (h6 : 6 ≤ q) :
    FramePasses sync idcode m n ↔ FramePasses sync idcode m' n := by
  have crc : crcOf m (n - 2) = crcOf m' (n - 2) :=
    crcOf_congr (fun i hi => h i (Nat.zero_le i) (by omega))
  have chk : word16 m (n - 2) = word16 m' (n - 2) := h.word16 (Nat.zero_le _) (by omega)
  have size : word16 m 2 = word16 m' 2 := h.word16 (Nat.zero_le _) (by omega)
  have id : word16 m 4 = word16 m' 4 := h.word16 (Nat.zero_le _) (by omega)
  rw [FramePasses, FramePasses, crc, chk, size, id, h 0 (le_refl 0) (by omega),
    h 1 (Nat.zero_le 1) (by omega)]

theorem checkFrame_below {sync : UInt8} {self : Client F} {b : Memory} {n : ℕ} (h2 : 2 ≤ n)
    (h : n < 2 ^ 31) (mapped : b.Defined 0 (max n 6)) :
    checkFrame sync self (b.below (max n 6)) n = checkFrame sync self b n := by
  have hn : b.Defined 0 n := mapped.mono (le_refl 0) (le_max_left n 6)
  have h6 : b.Defined 0 6 := mapped.mono (le_refl 0) (le_max_right n 6)
  have same := below_agrees b (max n 6)
  have below : ∀ q ≤ max n 6, (b.below (max n 6)).Defined 0 q := fun q hq =>
    (Memory.below_defined_iff b _ 0 q).2 ⟨mapped.mono (le_refl 0) hq, fun _ => hq⟩
  rw [checkFrame_eq h2 h hn h6,
    checkFrame_eq h2 h (below n (le_max_left n 6)) (below 6 (le_max_right n 6)),
    same.word16 (Nat.zero_le 2) (by omega), same.word16 (Nat.zero_le 4) (by omega)]
  have pass : FramePasses sync self.idcode (b.below (max n 6)).byte n ↔
      FramePasses sync self.idcode b.byte n :=
    FramePasses.congr same h2 (le_max_left n 6) (le_max_right n 6)
  simp only [pass]

def Configuration.slotBytes (c : Configuration F) : ℕ :=
  2 + c.numberOfPhasors.toNat * (if c.phasorIsFloatingPoint then 8 else 4) +
    (if c.freqIsFloatingPoint then 8 else 4) +
    c.numberOfAnalogs.toNat * (if c.analogIsFloatingPoint then 4 else 2) +
    2 * c.numberOfDigitals.toNat

def Client.expectedSize (self : Client F) : ℕ :=
  16 + ((self.configuration.take self.numPmu.toNat).map Configuration.slotBytes).sum

theorem slotBytes_eq (c : Configuration F) : c.slotBytes = c.layout.blockSize := by
  rw [Layout.blockSize, digitalOffset_layout]
  rfl

theorem expectedSize_eq (self : Client F) : self.expectedSize = self.dataEnd + 2 := by
  have sizes : (self.configuration.take self.numPmu.toNat).map Configuration.slotBytes =
      (self.layouts.take self.numPmu.toNat).map Layout.blockSize := by
    rw [Client.layouts, ← List.map_take, List.map_map]
    exact List.map_congr_left (fun c _ => slotBytes_eq c)
  rw [Client.expectedSize, sizes, Client.dataEnd, Client.blockBase, blockOffset]
  omega

theorem dataLoop_below {self : Client F} {b : Memory} (inside : self.ArraysInside)
    (read : b.Defined 0 self.dataEnd) (t : Temps F) {q : ℕ} (hq : self.dataEnd ≤ q) :
    ∃ s, forLoop (parsePmu (b.below q)) self.numPmu.toNat ⟨self.configuration, 14, t⟩ = some s ∧
      s.bufPos = self.dataEnd ∧ s.configuration = (self.storeData t b.byte).configuration := by
  have below : (b.below q).Defined 14 self.dataEnd :=
    (Memory.below_defined_iff b q 14 _).2
      ⟨read.mono (Nat.zero_le 14) (le_refl _), fun _ => hq⟩
  have same : SameBytes (b.below q).byte b.byte 14 self.dataEnd :=
    (below_agrees b q).mono (Nat.zero_le 14) hq
  exact ⟨_, (dataLoop_iff (b.below q) self t _).2 ⟨⟨inside, below⟩, rfl⟩, rfl,
    storeData_configuration_congr t same⟩

/-- A data frame is rejected, and nothing changes, exactly when one of the checks at its
    head fails. Otherwise its length plays no part: the cursor ends at the length that the
    installed configuration expects, two bytes less, and for a frame that is at least as
    long the measurements come from the bytes in front of its CHK word. -/
theorem data_accepted_whatever_its_length (t : Temps F) (self : Client F) (b : Memory) (n : ℕ)
    (h2 : 2 ≤ n) (h : n < 2 ^ 31) (mapped : b.Defined 0 (max n 6)) :
    (∀ self', parseDataFrame t self b n = some (-1, self') ↔
      ¬ FramePasses 0x01 self.idcode b.byte n ∧ self' = self) ∧
    (∀ self', parseDataFrame t self b n = some (0, self') ↔
      FramePasses 0x01 self.idcode b.byte n ∧ self.ArraysInside ∧
        b.Defined 0 (self.expectedSize - 2) ∧ self' = self.storeData t b.byte) ∧
    (self.ArraysInside → b.Defined 0 (self.expectedSize - 2) →
      (∃ s, forLoop (parsePmu b) self.numPmu.toNat ⟨self.configuration, 14, t⟩ = some s ∧
        s.bufPos = self.expectedSize - 2 ∧ (s.bufPos = n - 2 ↔ n = self.expectedSize) ∧
        s.configuration = (self.storeData t b.byte).configuration) ∧
      (self.expectedSize ≤ n → ∃ s,
        forLoop (parsePmu (b.below (n - 2))) self.numPmu.toNat ⟨self.configuration, 14, t⟩ =
          some s ∧ s.configuration = (self.storeData t b.byte).configuration)) := by
  have hn : b.Defined 0 n := mapped.mono (le_refl 0) (le_max_left n 6)
  have h6 : b.Defined 0 6 := mapped.mono (le_refl 0) (le_max_right n 6)
  have check := @checkFrame_reject_iff _ 0x01 self b n h2 h hn h6
  have size := expectedSize_eq self
  have ends : self.expectedSize - 2 = self.dataEnd := by omega
  refine ⟨fun self' => ?_, fun self' => ?_, fun inside read => ?_⟩
  · rw [parseDataFrame_iff t self b n h2 h, check]
    simp [eq_comm]
  · rw [parseDataFrame_iff t self b n h2 h, check, ends]
    simp [hn, eq_comm, and_assoc]
  · rw [ends] at read
    constructor
    · refine ⟨_, (dataLoop_iff b self t _).2
        ⟨⟨inside, read.mono (Nat.zero_le 14) (le_refl _)⟩, rfl⟩, ends.symm, ?_, rfl⟩
      change self.dataEnd = n - 2 ↔ _
      omega
    · intro long
      obtain ⟨s, loop, _, stored⟩ := dataLoop_below inside read t (q := n - 2) (by omega)
      exact ⟨s, loop, stored⟩

section
attribute [local instance] ExactRational.platform

def shortFrame : Memory :=
  Memory.zeroFilled BUFER_LENGTH (appendChk
    ([0xAA, 0x01, 0x00, 0x12, 0x00, 0x07, 0, 0, 0, 1, 0, 0, 0, 0] ++ [0x00, 0x00]))

theorem short_data_frame_is_accepted :
    ∃ self', parseDataFrame ⟨0, 0⟩ mixedClient shortFrame (18 : ℕ) = some (0, self') ∧
      18 ≠ mixedClient.expectedSize ∧ self' ≠ mixedClient ∧
      (self'.configuration.map (fun c => c.phasor.map Phasor.magnitude)).head? =
        some [ExactRational.binary32 (word32 shortFrame.byte 16)] :=
  ⟨mixedClient.storeData ⟨0, 0⟩ shortFrame.byte, by decide +kernel, by decide +kernel,
    by decide +kernel, by decide +kernel⟩

theorem mixedFrame_read_up_to_its_chk :
    ∃ s, forLoop (parsePmu (mixedFrame.below 46)) mixedClient.numPmu.toNat
      ⟨mixedClient.configuration, 14, ⟨0, 0⟩⟩ = some s ∧
        s.configuration = (mixedClient.storeData ⟨0, 0⟩ mixedFrame.byte).configuration := by
  have exactly : mixedClient.ArraysMatch := by decide +kernel
  have size : mixedClient.expectedSize = 48 := by decide +kernel
  exact ((data_accepted_whatever_its_length ⟨0, 0⟩ mixedClient mixedFrame 48 (by decide)
    (by decide) (Memory.zeroFilled_defined _ (by decide))).2.2 exactly.arraysInside
      (Memory.zeroFilled_defined _ (by rw [size]; decide))).2 size.le

end
/-- Where the records of a configuration frame end, each walked with its own counts. -/
def recordsEnd (m : ℕ → UInt8) : ℕ := formatPos m 20 (word16 m 18).toNat

theorem twenty_le_recordsEnd (m : ℕ → UInt8) : 20 ≤ recordsEnd m :=
  formatPos_mono m 20 (Nat.zero_le _)

theorem four_le_of_passes {sync : UInt8} {idcode : UInt16} {l : List UInt8} (h2 : 2 ≤ l.length)
    (pass : FramePasses sync idcode (Memory.zeroFilled BUFER_LENGTH l).byte l.length) :
    4 ≤ l.length := by
  obtain ⟨crc, first, _, size, _⟩ := pass
  by_contra lt
  obtain len | len : l.length = 2 ∨ l.length = 3 := by omega
  · -- the CHK word of an empty message would begin with 0xAA
    rw [len] at crc
    have word := word16_toNat (Memory.zeroFilled BUFER_LENGTH l).byte 0
    have low := ((Memory.zeroFilled BUFER_LENGTH l).byte (0 + 1)).toNat_lt
    have hi : (0xAA : UInt8).toNat = 170 := rfl
    have start : (crcOf (Memory.zeroFilled BUFER_LENGTH l).byte (2 - 2)).toNat = 65535 := rfl
    rw [first, hi, ← crc, start] at word
    omega
  · -- the low byte of FRAMESIZE would be the cleared one behind the frame
    have last : (Memory.zeroFilled BUFER_LENGTH l).byte 3 = 0 := by
      rw [Memory.zeroFilled_byte l (by decide)]
      simp [List.getD_eq_getElem?_getD, len]
    have word := word16_toNat (Memory.zeroFilled BUFER_LENGTH l).byte 2
    have zero : (0 : UInt8).toNat = 0 := rfl
    rw [size, len, last, zero] at word
    omega

theorem storeConfiguration_congr {m m' : ℕ → UInt8} {n q : ℕ} (self : Client F)
    (same : SameCountsThroughout m 20 (word16 m 18).toNat) (h : SameBytes m m' 0 q) (h4 : 4 ≤ n)
    (hn : n ≤ q) (hq : recordsEnd m ≤ q) :
    self.storeConfiguration m n = self.storeConfiguration m' n := by
  have low := twenty_le_recordsEnd m
  have id := h.word16 (r := 4) (by omega) (by omega)
  have base := h.word32 (r := 14) (by omega) (by omega)
  have count := h.word16 (r := 18) (by omega) (by omega)
  have rate := h.word16 (r := n - 4) (by omega) (by omega)
  have seconds := h.word32 (r := 6) (by omega) (by omega)
  have fraction := h.word24 (r := 11) (by omega) (by omega)
  have records := configurationAt_congr (F := F) same (h.mono (Nat.zero_le 20) hq)
  rw [count] at records
  have time : timeAt self.configTimeStamp 1000 m 6 = timeAt self.configTimeStamp 1000 m' 6 := by
    simp only [timeAt, seconds, fraction, h 10 (by omega) (by omega)]
  simp only [Client.storeConfiguration, id, base, time, count, rate, records]

/-- A frame of records with equal counts is stored without reading behind the longer one of
    the frame and its records. -/
theorem parseConfigurationFrame_below {self : Client F} {b : Memory} {n q : ℕ} (h4 : 4 ≤ n)
    (pass : FramePasses 0x31 self.idcode b.byte n)
    (same : SameCountsThroughout b.byte 20 (word16 b.byte 18).toNat) (mapped : b.Defined 0 q)
    (hn : n ≤ q) (hq : recordsEnd b.byte ≤ q) :
    parseConfigurationFrame self (b.below q) n = some (0, self.storeConfiguration b.byte n) := by
  have low := twenty_le_recordsEnd b.byte
  have agrees : SameBytes b.byte (b.below q).byte 0 q := fun k _ hk => (b.below_byte hk).symm
  have below : ∀ r ≤ q, (b.below q).Defined 0 r := fun r hr =>
    (Memory.below_defined_iff b q 0 r).2 ⟨mapped.mono (le_refl 0) hr, fun _ => hr⟩
  have count : word16 b.byte 18 = word16 (b.below q).byte 18 :=
    agrees.word16 (Nat.zero_le 18) (by omega)
  have walk : SameBytes b.byte (b.below q).byte 20 (recordsEnd b.byte) :=
    agrees.mono (Nat.zero_le 20) hq
  have records : RecordsDefined (b.below q) := by
    apply recordsDefined_of_sameCounts
    · rw [← count]
      exact same.congr walk
    · rw [← count, ← formatPos_congr walk (le_refl _)]
      exact (below _ hq).mono (Nat.zero_le 20) (le_refl _)
  have pass' := (FramePasses.congr agrees (by omega) hn (by omega)).1 pass
  have lt := pass.size_lt
  refine (parseConfigurationFrame_iff self (b.below q) n (by omega) (by omega) _).2 (.inl
    ⟨⟨below n hn, pass', below 20 (by omega), h4, records⟩, ?_⟩)
  rw [storeConfiguration_congr self same agrees h4 hn hq]

/-- Whether a configuration frame is accepted is decided by the checks at its head alone:
    NUM_PMU and the channel counts are not compared with the length of the frame. The bytes
    read for a frame whose records have equal counts lie before the end of the frame or of
    its records. -/
theorem configuration_accepted_whatever_its_counts (self : Client F) (l : List UInt8)
    (h2 : 2 ≤ l.length) (h : l.length ≤ BUFER_LENGTH) :
    let r := Received.ofBytes l h2 h
    let e := recordsEnd r.buffer.byte
    (∀ self', parseConfigurationFrame self r.buffer r.size = some (-1, self') ↔
      ¬ r.Passes 0x31 self.idcode ∧ self' = self) ∧
    (¬ r.Passes 0x31 self.idcode →
      parseConfigurationFrame self (r.buffer.below (max r.size 6)) r.size = some (-1, self)) ∧
    (∀ self', parseConfigurationFrame self r.buffer r.size = some (0, self') →
      r.Passes 0x31 self.idcode ∧ self' = self.storeConfiguration r.buffer.byte r.size) ∧
    (r.Passes 0x31 self.idcode →
      SameCountsThroughout r.buffer.byte 20 (word16 r.buffer.byte 18).toNat →
      e ≤ BUFER_LENGTH →
        parseConfigurationFrame self r.buffer r.size =
          some (0, self.storeConfiguration r.buffer.byte r.size) ∧
        parseConfigurationFrame self (r.buffer.below (max r.size e)) r.size =
          some (0, self.storeConfiguration r.buffer.byte r.size)) := by
  intro r e
  have iff := parseConfigurationFrame_iff self r.buffer r.size r.two_le r.size_lt
  rw [r.checkFrame_iff] at iff
  refine ⟨fun self' => ?_, fun fail => ?_, fun self' run => ?_, fun pass same inside => ?_⟩
  · rw [iff]
    simp [eq_comm]
  · have mapped : r.buffer.Defined 0 (max r.size 6) :=
      r.defined_le (max_le r.size_le (by decide))
    have reject := (r.checkFrame_iff 0x31 self).2 fail
    rw [← checkFrame_below r.two_le r.size_lt mapped] at reject
    exact (parseConfigurationFrame_iff self _ r.size r.two_le r.size_lt _).2 (.inr ⟨reject, rfl⟩)
  · rcases (iff _).1 run with ⟨⟨_, pass, _⟩, hr⟩ | ⟨_, hr⟩
    · cases hr
      exact ⟨pass, rfl⟩
    · simp at hr
  · have h4 : 4 ≤ r.size := four_le_of_passes h2 pass
    have low := twenty_le_recordsEnd r.buffer.byte
    have records : RecordsDefined r.buffer :=
      recordsDefined_of_sameCounts same ((r.defined_le inside).mono (Nat.zero_le 20) (le_refl e))
    constructor
    · exact (iff _).2 (.inl ⟨⟨r.defined_le r.size_le, pass, r.defined_le (by decide), h4,
        records⟩, rfl⟩)
    · exact parseConfigurationFrame_below h4 pass same (r.defined_le (max_le r.size_le inside))
        (le_max_left _ _) (le_max_right _ _)

section
attribute [local instance] ExactRational.platform

def missingRecord : List UInt8 :=
  appendChk ([0xAA, 0x31, 0, 24, 0, 7, 0, 0, 0, 1, 0, 0, 0, 0, 0, 0, 3, 0xE8, 0, 1] ++ [0, 50])

def receivedMissing : Received :=
  .ofBytes missingRecord (by decide +kernel) (by decide +kernel)

/-- The record is made of DATA_RATE, CHK and the cleared bytes behind the frame. -/
theorem missing_record_is_accepted :
    parseConfigurationFrame (Client.fresh 7 0 [] [] : Client ℚ) receivedMissing.buffer
        receivedMissing.size =
      some (0, (Client.fresh 7 0 [] []).storeConfiguration receivedMissing.buffer.byte 24) ∧
    recordsEnd receivedMissing.buffer.byte = 50 ∧ receivedMissing.size - 4 = 20 ∧
    parseConfigurationFrame (Client.fresh 7 0 [] [] : Client ℚ)
      (receivedMissing.buffer.below receivedMissing.size) receivedMissing.size = none :=
  ⟨by decide +kernel, by decide +kernel, by decide +kernel, by decide +kernel⟩

theorem missing_record_read_behind_the_frame :
    parseConfigurationFrame (Client.fresh 7 0 [] [] : Client ℚ)
      (receivedMissing.buffer.below
        (max receivedMissing.size (recordsEnd receivedMissing.buffer.byte)))
      receivedMissing.size = some (0,
        (Client.fresh 7 0 [] []).storeConfiguration receivedMissing.buffer.byte
          receivedMissing.size) := by
  have pass : receivedMissing.Passes 0x31 7 := by decide +kernel
  have same : SameCountsThroughout receivedMissing.buffer.byte 20
      (word16 receivedMissing.buffer.byte 18).toNat := by decide +kernel
  have inside : recordsEnd receivedMissing.buffer.byte ≤ BUFER_LENGTH := by decide +kernel
  exact ((configuration_accepted_whatever_its_counts (Client.fresh 7 0 [] [] : Client ℚ)
    missingRecord (by decide +kernel) (by decide +kernel)).2.2.2 pass same inside).2

end
end Khorjin
