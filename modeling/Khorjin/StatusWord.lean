import Khorjin.ChannelOutput
import Khorjin.DataHistory

set_option autoImplicit false

/-!
# The slices of the STAT word

What `parseSTATWord` makes of the word, against the fields as the frame format cuts
them. Its masks 0x1111, 0x11 and 0x111 have one bit in four.
-/
namespace Khorjin
open ByteMemory LoopRules
variable {F D : Type} [Platform F D]

def slice (w : UInt16) (start len : ℕ) : ℕ := w.toNat / 2 ^ start % 2 ^ len

structure StatusSlices (w : UInt16) (c : Configuration F) : Prop where
  statWord : c.statWord = w
  triggerReason : c.triggerReason.toNat = slice w 0 4
  unlockTime : c.unlockTime.toNat = slice w 4 2
  pmuTimeQuality : c.pmuTimeQuality.toNat = slice w 6 3
  dataModified : c.dataModified.toNat = slice w 9 1
  configToChange : c.configToChange.toNat = slice w 10 1
  pmuIsTriggered : c.pmuIsTriggered.toNat = slice w 11 1
  dataSortingByArrivalorTime : c.dataSortingByArrivalorTime.toNat = slice w 12 1
  pmuIsNOTSync : c.pmuIsNOTSync.toNat = slice w 13 1
  dataError : c.dataError.toNat = slice w 14 2

def Configuration.reassembledSTAT {F : Type} (c : Configuration F) : ℕ :=
  c.triggerReason.toNat + 2 ^ 4 * c.unlockTime.toNat + 2 ^ 6 * c.pmuTimeQuality.toNat +
    2 ^ 9 * c.dataModified.toNat + 2 ^ 10 * c.configToChange.toNat +
    2 ^ 11 * c.pmuIsTriggered.toNat + 2 ^ 12 * c.dataSortingByArrivalorTime.toNat +
    2 ^ 13 * c.pmuIsNOTSync.toNat + 2 ^ 14 * c.dataError.toNat

structure StatusReports (w : UInt16) (s : Status) : Prop where
  dataError : s.dataError.toNat = slice w 14 2
  pmuIsNOTSync : s.pmuIsNOTSync.toNat = slice w 13 1
  pmuIsTriggered : s.pmuIsTriggered.toNat = slice w 11 1
  dataModified : s.dataModified.toNat = slice w 9 1
  pmuTimeQuality : s.pmuTimeQuality.toNat = slice w 6 3
  unlockTime : s.unlockTime.toNat = slice w 4 2
  triggerReason : s.triggerReason.toNat = slice w 0 4

/-- The five flags that `parseSTATWord` only ever sets are down. -/
structure FlagsClear {F : Type} (c : Configuration F) : Prop where
  dataModified : c.dataModified = false
  configToChange : c.configToChange = false
  pmuIsTriggered : c.pmuIsTriggered = false
  dataSortingByArrivalorTime : c.dataSortingByArrivalorTime = false
  pmuIsNOTSync : c.pmuIsNOTSync = false

/-- The bits of the word that a mask drops, or puts into another field as well. -/
def maskedBits : List ℕ := [1, 2, 3, 4, 5, 7, 8, 10, 15]

theorem StatusSlices.reassembled {w : UInt16} {c : Configuration F} (h : StatusSlices w c) :
    c.reassembledSTAT = c.statWord.toNat := by
  have lt := w.toNat_lt
  rw [Configuration.reassembledSTAT, h.triggerReason, h.unlockTime, h.pmuTimeQuality,
    h.dataModified, h.configToChange, h.pmuIsTriggered, h.dataSortingByArrivalorTime,
    h.pmuIsNOTSync, h.dataError, h.statWord]
  simp only [slice]
  omega

theorem toUInt8_toNat (b : Bool) : b.toUInt8.toNat = b.toNat := by cases b <;> rfl

/-- Each of the masks keeps bits 0 and 4 of the low byte. -/
theorem masked_toNat {mask : UInt16} (h : mask.toNat % 2 ^ 8 = 17) (v : UInt16) :
    (v &&& mask).toUInt8.toNat = v.toNat % 2 + 16 * (v.toNat / 16 % 2) := by
  have byte : ∀ x < 256, x &&& 17 = x % 2 + 16 * (x / 16 % 2) := by decide +kernel
  have low := byte (v.toNat % 256) (Nat.mod_lt _ (by decide))
  rw [UInt16.toNat_toUInt8, UInt16.toNat_and, Nat.and_mod_two_pow, h]
  change v.toNat % 256 &&& 17 = _
  omega

theorem storeSTAT_fields (w : UInt16) (c : Configuration F) :
    (c.storeSTAT w).triggerReason.toNat = slice w 0 1 + 16 * slice w 4 1 ∧
      (c.storeSTAT w).unlockTime.toNat = slice w 4 1 + 16 * slice w 8 1 ∧
      (c.storeSTAT w).pmuTimeQuality.toNat = slice w 6 1 + 16 * slice w 10 1 ∧
      (c.storeSTAT w).dataError.toNat = slice w 14 1 := by
  have lt := w.toNat_lt
  have h4 : (w >>> 4).toNat = w.toNat / 16 := by
    simp [UInt16.toNat_shiftRight, Nat.shiftRight_eq_div_pow]
  have h6 : (w >>> 4 >>> 2).toNat = w.toNat / 16 / 4 := by
    simp [UInt16.toNat_shiftRight, Nat.shiftRight_eq_div_pow]
  have h14 : (w >>> 4 >>> 2 >>> 3 >>> 1 >>> 1 >>> 1 >>> 1 >>> 1).toNat =
      w.toNat / 16 / 4 / 8 / 2 / 2 / 2 / 2 / 2 := by
    simp [UInt16.toNat_shiftRight, Nat.shiftRight_eq_div_pow]
  have m1 : (0x1111 : UInt16).toNat % 2 ^ 8 = 17 := rfl
  have m2 : (0x11 : UInt16).toNat % 2 ^ 8 = 17 := rfl
  have m3 : (0x111 : UInt16).toNat % 2 ^ 8 = 17 := rfl
  simp only [Configuration.storeSTAT, masked_toNat m1, masked_toNat m2, masked_toNat m3, h4, h6,
    h14, slice]
  omega

theorem storeSTAT_flags {c : Configuration F} (clear : FlagsClear c) (w : UInt16) :
    (c.storeSTAT w).dataModified.toNat = slice w 9 1 ∧
      (c.storeSTAT w).configToChange.toNat = slice w 10 1 ∧
      (c.storeSTAT w).pmuIsTriggered.toNat = slice w 11 1 ∧
      (c.storeSTAT w).dataSortingByArrivalorTime.toNat = slice w 12 1 ∧
      (c.storeSTAT w).pmuIsNOTSync.toNat = slice w 13 1 := by
  obtain ⟨h9, h10, h11, h12, h13⟩ := flagWords_toNat w
  have bit : ∀ k, (if w.toNat.testBit k then true else false : Bool).toNat = slice w k 1 := by
    intro k
    rw [slice, Nat.testBit_eq_decide_div_mod_eq]
    rcases Nat.mod_two_eq_zero_or_one (w.toNat / 2 ^ k) with h | h <;> simp [h]
  simp only [Configuration.storeSTAT, clear.dataModified, clear.configToChange,
    clear.pmuIsTriggered, clear.dataSortingByArrivalorTime, clear.pmuIsNOTSync,
    shiftedBit_iff h9, shiftedBit_iff h10, shiftedBit_iff h11, shiftedBit_iff h12,
    shiftedBit_iff h13, bit, and_self]

theorem maskedBits_clear_iff (w : UInt16) : (∀ k ∈ maskedBits, w.toNat.testBit k = false) ↔
    slice w 0 1 + 16 * slice w 4 1 = slice w 0 4 ∧ slice w 4 1 + 16 * slice w 8 1 = slice w 4 2 ∧
      slice w 6 1 + 16 * slice w 10 1 = slice w 6 3 ∧ slice w 14 1 = slice w 14 2 := by
  have lt := w.toNat_lt
  simp only [maskedBits, List.forall_mem_cons, List.not_mem_nil, false_implies, implies_true,
    and_true, Nat.testBit_eq_decide_div_mod_eq, decide_eq_false_iff_not, slice]
  omega

theorem storeSTAT_slices_iff {c : Configuration F} (clear : FlagsClear c) (w : UInt16) :
    StatusSlices w (c.storeSTAT w) ↔ ∀ k ∈ maskedBits, w.toNat.testBit k = false := by
  have fields := storeSTAT_fields w c
  have flags := storeSTAT_flags clear w
  rw [maskedBits_clear_iff, ← fields.1, ← fields.2.1, ← fields.2.2.1, ← fields.2.2.2]
  constructor
  · intro h
    exact ⟨h.triggerReason, h.unlockTime, h.pmuTimeQuality, h.dataError⟩
  · intro h
    exact ⟨rfl, h.1, h.2.1, h.2.2.1, flags.1, flags.2.1, flags.2.2.1, flags.2.2.2.1,
      flags.2.2.2.2, h.2.2.2⟩

theorem blockAt_slices_iff {c : Configuration F} (clear : FlagsClear c) (m : ℕ → UInt8)
    (t : Temps F) (p : ℕ) : StatusSlices (word16 m p) (blockAt c m t p) ↔
      ∀ k ∈ maskedBits, (word16 m p).toNat.testBit k = false := by
  rw [← storeSTAT_slices_iff clear (word16 m p)]
  constructor
  · intro h
    exact ⟨h.statWord, h.triggerReason, h.unlockTime, h.pmuTimeQuality, h.dataModified,
      h.configToChange, h.pmuIsTriggered, h.dataSortingByArrivalorTime, h.pmuIsNOTSync,
      h.dataError⟩
  · intro h
    exact ⟨h.statWord, h.triggerReason, h.unlockTime, h.pmuTimeQuality, h.dataModified,
      h.configToChange, h.pmuIsTriggered, h.dataSortingByArrivalorTime, h.pmuIsNOTSync,
      h.dataError⟩

theorem StatusSlices.reports {w : UInt16} {client : Client F} {i : ℕ} {c : Configuration F}
    {s : Status} (h : StatusSlices w c) (hc : client.configuration[i]? = some c)
    (hs : outputDataStream_status client i = some s) : StatusReports w s := by
  simp only [outputDataStream_status, hc, Option.bind_eq_bind, Option.bind_some,
    Option.some.injEq] at hs
  subst hs
  constructor <;> simp only [toUInt8_toNat]
  case dataError => exact h.dataError
  case pmuIsNOTSync => exact h.pmuIsNOTSync
  case pmuIsTriggered => exact h.pmuIsTriggered
  case dataModified => exact h.dataModified
  case pmuTimeQuality => exact h.pmuTimeQuality
  case unlockTime => exact h.unlockTime
  case triggerReason => exact h.triggerReason

/-- After an accepted data frame the status of PMU `i` is the disjoint slicing of its STAT
    word exactly when the word has none of the bits that the masks drop or mix up. -/
theorem status_sliced_iff {t : Temps F} {self self' : Client F} {b : Memory} {bufferSize : ℤ}
    (clear : ∀ c ∈ self.configuration, FlagsClear c)
    (run : parseDataFrame t self b bufferSize = some (0, self')) {i : ℕ}
    (hi : i < self.numPmu.toNat) :
    ∃ c' s, self'.configuration[i]? = some c' ∧ outputDataStream_status self' i = some s ∧
      (StatusSlices (word16 b.byte (slotBase self.configuration i)) c' ∧
          c'.reassembledSTAT = c'.statWord.toNat ∧
          StatusReports (word16 b.byte (slotBase self.configuration i)) s ↔
        ∀ k ∈ maskedBits,
          (word16 b.byte (slotBase self.configuration i)).toNat.testBit k = false) := by
  obtain ⟨_, _, _, _, inside, _⟩ := parseDataFrame_accepted run
  obtain ⟨c, hc, _⟩ := inside i hi
  have stored := (accepted_get run hi hc).2
  have status : ∃ s, outputDataStream_status self' i = some s := by
    simp only [outputDataStream_status, stored, Option.bind_eq_bind, Option.bind_some]
    exact ⟨_, rfl⟩
  obtain ⟨s, hs⟩ := status
  have sliced := blockAt_slices_iff (clear c (List.mem_of_getElem? hc)) b.byte
    (self.blockTemps b.byte t i) (self.blockBase i)
  refine ⟨_, s, stored, hs, ?_⟩
  rw [slotBase_get hc, ← sliced]
  constructor
  · intro h
    exact h.1
  · intro h
    exact ⟨h, h.reassembled, h.reports stored hs⟩

section
attribute [local instance] ExactRational.platform

theorem mixedClient_flagsClear : ∀ c ∈ mixedClient.configuration, FlagsClear c := by
  intro c hc
  have flags : ∀ c ∈ mixedClient.configuration, c.dataModified = false ∧
      c.configToChange = false ∧ c.pmuIsTriggered = false ∧
      c.dataSortingByArrivalorTime = false ∧ c.pmuIsNOTSync = false := by
    decide +kernel
  have h := flags c hc
  exact ⟨h.1, h.2.1, h.2.2.1, h.2.2.2.1, h.2.2.2.2⟩

def testModeFrame : Memory :=
  Memory.zeroFilled BUFER_LENGTH (appendChk
    ([0xAA, 0x01, 0x00, 0x30, 0x00, 0x07, 0, 0, 0, 1, 0, 0, 0, 0] ++
      [0x80, 0x00, 0x3F, 0x80, 0x00, 0x00, 0x40, 0x00, 0x00, 0x00, 0x42, 0x48, 0x00, 0x00,
        0, 0, 0, 0, 0x01, 0x02, 0x00, 0x05] ++
      [0x20, 0x00, 0x10, 0x00, 0x20, 0x00, 0x00, 0x01, 0x00, 0x02]))

/-- The data of a PMU in test mode are reported as good measurements. -/
theorem test_mode_is_reported_as_good :
    ∃ self' c s, parseDataFrame ⟨0, 0⟩ mixedClient testModeFrame (48 : ℕ) = some (0, self') ∧
      48 = mixedClient.expectedSize ∧ (∀ c ∈ mixedClient.configuration, FlagsClear c) ∧
      self'.configuration[0]? = some c ∧ outputDataStream_status self' 0 = some s ∧
      c.statWord = 0x8000 ∧ c.dataError = 0 ∧ s.dataError = 0 ∧ slice 0x8000 14 2 = 2 ∧
      ¬ StatusSlices 0x8000 c ∧ ¬ StatusReports 0x8000 s := by
  have run : parseDataFrame ⟨0, 0⟩ mixedClient testModeFrame (48 : ℕ) =
      some (0, mixedClient.storeData ⟨0, 0⟩ testModeFrame.byte) :=
    accepts_of_passes mixedClient_arraysMatch (by decide +kernel) (by decide +kernel)
  have observed : (outputDataStream_status (mixedClient.storeData ⟨0, 0⟩ testModeFrame.byte)
      0).map Status.dataError = some 0 := by
    decide +kernel
  have record : (mixedClient.storeData ⟨0, 0⟩ testModeFrame.byte).configuration[0]?.map
      (fun c => (c.statWord, c.dataError)) = some (0x8000, 0) := by
    decide +kernel
  obtain ⟨s, hs, error⟩ := Option.map_eq_some_iff.1 observed
  obtain ⟨c, hc, values⟩ := Option.map_eq_some_iff.1 record
  have word : c.statWord = 0x8000 := congrArg Prod.fst values
  have error' : c.dataError = 0 := congrArg Prod.snd values
  refine ⟨_, c, s, run, mixedClient_expects_48.symm, mixedClient_flagsClear, hc, hs, word, error',
    error, rfl, ?_, ?_⟩
  · intro h
    have := h.dataError
    rw [error'] at this
    exact absurd this (by decide)
  · intro h
    have := h.dataError
    rw [error] at this
    exact absurd this (by decide)

theorem unsynchronised_pmu_is_sliced :
    ∃ c s, (mixedClient.storeData ⟨0, 0⟩ mixedFrame.byte).configuration[1]? = some c ∧
      outputDataStream_status (mixedClient.storeData ⟨0, 0⟩ mixedFrame.byte) 1 = some s ∧
      StatusSlices 0x2000 c ∧ StatusReports 0x2000 s := by
  have word : word16 mixedFrame.byte (slotBase mixedClient.configuration 1) = 0x2000 := by
    decide +kernel
  obtain ⟨c, s, hc, hs, sliced⟩ := status_sliced_iff mixedClient_flagsClear
    mixedClient_reads_mixedFrame (i := 1) (by decide)
  rw [word] at sliced
  have h := sliced.2 (by decide +kernel)
  exact ⟨c, s, hc, hs, h.1, h.2.2⟩

end
end Khorjin
