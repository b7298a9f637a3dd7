import Khorjin.DataSlots

set_option autoImplicit false

/-!
# Where an accepted data frame is stored

The offsets of the blocks as the frame format gives them, and every stored field
as a function of its own slot.
-/
namespace Khorjin
open ByteMemory LoopRules
variable {F D : Type} [Platform F D]

/-- The STAT word of PMU `i` in a data frame for the records `cs`. -/
def slotBase (cs : List (Configuration F)) : ℕ → ℕ
  | 0 => 14
  | i + 1 =>
    match cs[i]? with
    | some c =>
      slotBase cs i + 2 + c.numberOfPhasors.toNat * (if c.phasorIsFloatingPoint then 8 else 4) +
        (if c.freqIsFloatingPoint then 8 else 4) +
        c.numberOfAnalogs.toNat * (if c.analogIsFloatingPoint then 4 else 2) +
        2 * c.numberOfDigitals.toNat
    | none => slotBase cs i

/-- The two frequency words or floats of PMU `i`, whose record is `c`. -/
def freqSlot (cs : List (Configuration F)) (i : ℕ) (c : Configuration F) : ℕ :=
  slotBase cs i + 2 + c.numberOfPhasors.toNat * (if c.phasorIsFloatingPoint then 8 else 4)

def analogSlot (cs : List (Configuration F)) (i : ℕ) (c : Configuration F) : ℕ :=
  freqSlot cs i c + (if c.freqIsFloatingPoint then 8 else 4)

/-- The fields of `c'` are those that the block at `base` gives to a record like `c`. -/
structure TakenFrom (m : ℕ → UInt8) (base : ℕ) (c c' : Configuration F) : Prop where
  statWord : c'.statWord = word16 m base
  phasor : c.phasorIsFloatingPoint → c.phasorIsPolar → ∀ j < c.numberOfPhasors.toNat,
    ∃ ph, c'.phasor[j]? = some ph ∧
      ph.magnitude = FloatArith.ofBits (word32 m (base + 2 + 8 * j)) ∧
      ph.angle = FloatArith.ofBits (word32 m (base + 6 + 8 * j))
  frequency : c.freqIsFloatingPoint → c'.frequency = FloatArith.ofBits (word32 m
    (base + 2 + c.numberOfPhasors.toNat * (if c.phasorIsFloatingPoint then 8 else 4)))
  analog : c.analogIsFloatingPoint → ∀ j < c.numberOfAnalogs.toNat,
    ∃ an, c'.analog[j]? = some an ∧ an.value = FloatArith.ofBits (word32 m
      (base + 2 + c.numberOfPhasors.toNat * (if c.phasorIsFloatingPoint then 8 else 4) +
        (if c.freqIsFloatingPoint then 8 else 4) + 4 * j))
  digital : ∀ j < c.numberOfDigitals.toNat, ∃ dg, c'.digital[j]? = some dg ∧
    dg.digitalWord = word16 m
      (base + 2 + c.numberOfPhasors.toNat * (if c.phasorIsFloatingPoint then 8 else 4) +
        (if c.freqIsFloatingPoint then 8 else 4) +
        c.numberOfAnalogs.toNat * (if c.analogIsFloatingPoint then 4 else 2) + 2 * j)

theorem freqOffset_layout (c : Configuration F) : c.layout.freqOffset =
    2 + c.numberOfPhasors.toNat * (if c.phasorIsFloatingPoint then 8 else 4) := by
  rw [Nat.mul_comm]
  rfl

theorem analogOffset_layout (c : Configuration F) : c.layout.analogOffset =
    2 + c.numberOfPhasors.toNat * (if c.phasorIsFloatingPoint then 8 else 4) +
      (if c.freqIsFloatingPoint then 8 else 4) := by
  rw [Layout.analogOffset, freqOffset_layout]
  rfl

theorem digitalOffset_layout (c : Configuration F) : c.layout.digitalOffset =
    2 + c.numberOfPhasors.toNat * (if c.phasorIsFloatingPoint then 8 else 4) +
      (if c.freqIsFloatingPoint then 8 else 4) +
      c.numberOfAnalogs.toNat * (if c.analogIsFloatingPoint then 4 else 2) := by
  rw [Layout.digitalOffset, analogOffset_layout, Nat.mul_comm c.layout.analogWidth]
  rfl

theorem slotBase_eq (self : Client F) (i : ℕ) (hi : i ≤ self.configuration.length) :
    slotBase self.configuration i = self.blockBase i := by
  induction i with
  | zero => rfl
  | succ i ih =>
    have hc : self.configuration[i]? = some self.configuration[i] := List.getElem?_eq_getElem hi
    rw [blockBase_succ hc, ← ih (by omega), Layout.blockSize, digitalOffset_layout]
    simp only [slotBase, hc, Nat.add_assoc]
    rfl

theorem slotBase_get {self : Client F} {i : ℕ} {c : Configuration F}
    (hc : self.configuration[i]? = some c) : slotBase self.configuration i = self.blockBase i :=
  slotBase_eq self i (le_of_lt (List.getElem?_eq_some_iff.1 hc).choose)

theorem freqSlot_eq {self : Client F} {i : ℕ} {c : Configuration F}
    (hc : self.configuration[i]? = some c) :
    freqSlot self.configuration i c = self.blockBase i + c.layout.freqOffset := by
  rw [freqSlot, slotBase_get hc, freqOffset_layout, Nat.add_assoc]

theorem analogSlot_eq {self : Client F} {i : ℕ} {c : Configuration F}
    (hc : self.configuration[i]? = some c) :
    analogSlot self.configuration i c = self.blockBase i + c.layout.analogOffset := by
  rw [analogSlot, freqSlot_eq hc, Layout.analogOffset, Nat.add_assoc]
  rfl

theorem accepted_numPmu {t : Temps F} {self self' : Client F} {b : Memory} {bufferSize : ℤ}
    (run : parseDataFrame t self b bufferSize = some (0, self')) : self'.numPmu = self.numPmu := by
  obtain ⟨_, _, _, _, _, _, rfl⟩ := parseDataFrame_accepted run
  rfl

theorem accepted_get {t : Temps F} {self self' : Client F} {b : Memory} {bufferSize : ℤ}
    (run : parseDataFrame t self b bufferSize = some (0, self')) {i : ℕ} {c : Configuration F}
    (hi : i < self.numPmu.toNat) (hc : self.configuration[i]? = some c) :
    c.CountsInside ∧ self'.configuration[i]? =
      some (blockAt c b.byte (self.blockTemps b.byte t i) (self.blockBase i)) := by
  obtain ⟨_, _, _, _, inside, _, rfl⟩ := parseDataFrame_accepted run
  obtain ⟨d, hd, counts⟩ := inside i hi
  obtain rfl := Option.some.inj (hd.symm.trans hc)
  exact ⟨counts, storeData_get hi hc t b.byte⟩

theorem blockAt_phasor {c : Configuration F} {j : ℕ} {ph : Phasor F} (hj : j < c.layout.phasors)
    (h : c.phasor[j]? = some ph) (m : ℕ → UInt8) (t : Temps F) (p : ℕ) :
    (blockAt c m t p).phasor[j]? =
      some (phasorAt c.layout m t (p + 2 + c.layout.phasorWidth * j) ph) := by
  rw [blockAt_phasors, sweep_get_lt _ _ hj, h]
  rfl

theorem blockAt_analog {c : Configuration F} {j : ℕ} {an : Analog F} (hj : j < c.layout.analogs)
    (h : c.analog[j]? = some an) (m : ℕ → UInt8) (t : Temps F) (p : ℕ) :
    (blockAt c m t p).analog[j]? =
      some (analogAt c.layout m (p + c.layout.analogOffset + c.layout.analogWidth * j) an) := by
  rw [blockAt_analogs, sweep_get_lt _ _ hj, h]
  rfl

theorem blockAt_digital {c : Configuration F} {j : ℕ} {dg : Digital} (hj : j < c.layout.digitals)
    (h : c.digital[j]? = some dg) (m : ℕ → UInt8) (t : Temps F) (p : ℕ) :
    (blockAt c m t p).digital[j]? =
      some (dg.storeWord (word16 m (p + c.layout.digitalOffset + 2 * j))) := by
  rw [blockAt_digitals, sweep_get_lt _ _ hj, h]
  rfl

theorem blockAt_takenFrom (c : Configuration F) (exactly : c.ArraysMatch) (m : ℕ → UInt8)
    (t : Temps F) (p : ℕ) : TakenFrom m p c (blockAt c m t p) := by
  obtain ⟨phasors, analogs, digitals⟩ := exactly
  constructor
  case statWord => rfl
  case phasor =>
    intro float polar j hj
    have hc : c.phasor[j]? = some c.phasor[j] := List.getElem?_eq_getElem (by omega)
    refine ⟨_, blockAt_phasor hj hc m t p, ?_⟩
    have hf : c.layout.phasorIsFloatingPoint := float
    have hp : c.layout.phasorIsPolar := polar
    simp only [phasorAt, Layout.phasorWidth, hf, hp, if_true, float32, true_and]
    rw [show p + 2 + 8 * j + 4 = p + 6 + 8 * j by omega]
  case frequency =>
    intro float
    have hf : c.layout.freqIsFloatingPoint := float
    change frequencyAt c.layout m (p + c.layout.freqOffset) = _
    rw [frequencyAt, if_pos hf, freqOffset_layout, ← Nat.add_assoc]
    rfl
  case analog =>
    intro float j hj
    have hc : c.analog[j]? = some c.analog[j] := List.getElem?_eq_getElem (by omega)
    refine ⟨_, blockAt_analog hj hc m t p, ?_⟩
    have hf : c.layout.analogIsFloatingPoint := float
    simp only [analogAt, Layout.analogWidth, hf, if_true, float32, analogOffset_layout,
      ← Nat.add_assoc]
  case digital =>
    intro j hj
    have hc : c.digital[j]? = some c.digital[j] := List.getElem?_eq_getElem (by omega)
    refine ⟨_, blockAt_digital hj hc m t p, ?_⟩
    simp only [digitalOffset_layout, ← Nat.add_assoc]
    rfl

theorem cursor_iff {self : Client F} {b : Memory} {i : ℕ} (inside : self.ArraysInside)
    (read : b.Defined 0 self.dataEnd) (hi : i ≤ self.numPmu.toNat) (t : Temps F) :
    ∃ s, forLoop (parsePmu b) i ⟨self.configuration, 14, t⟩ = some s ∧
      s.bufPos = self.blockBase i := by
  have le : self.blockBase i ≤ self.dataEnd := by
    have := blockOffset_mono self.layouts hi
    unfold Client.dataEnd Client.blockBase
    omega
  refine ⟨_, (pmus_iff b self.configuration t 14 i _).2 ⟨⟨?_, ?_⟩, rfl⟩, rfl⟩
  · intro k hk
    exact inside k (by omega)
  · exact read.mono (Nat.zero_le _) le

/-- A frame of the expected length that passes the checks is accepted. Every field comes
    from its own slot, and the cursor passes from slot to slot whatever the data are. -/
theorem parseDataFrame_takes_every_field_from_its_slot (t : Temps F) (self : Client F)
    (b : Memory) (n : ℕ) (exactly : self.ArraysMatch)
    (expected : n = slotBase self.configuration self.numPmu.toNat + 2)
    (mapped : b.Defined 0 n) (pass : FramePasses 0x01 self.idcode b.byte n) :
    ∃ self', parseDataFrame t self b n = some (0, self') ∧ ∀ i < self.numPmu.toNat,
      (∃ c c', self.configuration[i]? = some c ∧ self'.configuration[i]? = some c' ∧
        TakenFrom b.byte (slotBase self.configuration i) c c') ∧
      ∃ s, forLoop (parsePmu b) (i + 1) ⟨self.configuration, 14, t⟩ = some s ∧
        s.bufPos = slotBase self.configuration (i + 1) := by
  have inside := exactly.arraysInside
  have ends : slotBase self.configuration self.numPmu.toNat = self.dataEnd :=
    slotBase_eq self _ exactly.1.ge
  have read : b.Defined 0 self.dataEnd := mapped.mono (Nat.zero_le _) (by omega)
  refine ⟨_, parseDataFrame_of_pass (by omega) pass inside mapped read, ?_⟩
  intro i hi
  have lt : i < self.configuration.length := by
    rw [exactly.1]
    exact hi
  obtain ⟨c, hc, counts⟩ := exactly.get hi
  constructor
  · refine ⟨c, _, hc, storeData_get hi hc t b.byte, ?_⟩
    rw [slotBase_eq self i (by omega)]
    exact blockAt_takenFrom c counts b.byte _ _
  · rw [slotBase_eq self (i + 1) (by omega)]
    exact cursor_iff inside read hi t

section
attribute [local instance] ExactRational.platform

/-- Two PMUs with different formats, the first one with a phasor, an analog and a digital
    channel, the second one with an integer phasor. -/
def mixedClient : Client ℚ :=
  { Client.fresh 7 0 [] [] with
    numPmu := 2
    timeBase := 1000
    configuration := [
      { Configuration.zero with
        phasorIsFloatingPoint := true
        phasorIsPolar := true
        freqIsFloatingPoint := true
        numberOfPhasors := 1
        numberOfAnalogs := 1
        numberOfDigitals := 1
        phasor := [Phasor.zero]
        analog := [Analog.zero]
        digital := [Digital.zero] },
      { Configuration.zero with
        phasorIsPolar := true
        numberOfPhasors := 1
        phasor := [{ Phasor.zero with conversionFactor := 1 }] }] }

def mixedFrame : Memory :=
  Memory.zeroFilled BUFER_LENGTH (appendChk
    ([0xAA, 0x01, 0x00, 0x30, 0x00, 0x07, 0, 0, 0, 1, 0, 0, 0, 0] ++
      [0x00, 0x00, 0x3F, 0x80, 0x00, 0x00, 0x40, 0x00, 0x00, 0x00, 0x42, 0x48, 0x00, 0x00,
        0, 0, 0, 0, 0x01, 0x02, 0x00, 0x05] ++
      [0x20, 0x00, 0x10, 0x00, 0x20, 0x00, 0x00, 0x01, 0x00, 0x02]))

theorem mixedFrame_taken_slot_by_slot :
    ∃ self', parseDataFrame ⟨0, 0⟩ mixedClient mixedFrame (48 : ℕ) = some (0, self') ∧
      ∀ i < mixedClient.numPmu.toNat,
        (∃ c c', mixedClient.configuration[i]? = some c ∧ self'.configuration[i]? = some c' ∧
          TakenFrom mixedFrame.byte (slotBase mixedClient.configuration i) c c') ∧
        ∃ s, forLoop (parsePmu mixedFrame) (i + 1)
            ⟨mixedClient.configuration, 14, ⟨0, 0⟩⟩ = some s ∧
          s.bufPos = slotBase mixedClient.configuration (i + 1) :=
  parseDataFrame_takes_every_field_from_its_slot ⟨0, 0⟩ mixedClient mixedFrame 48
    (by decide +kernel) (by decide +kernel) (Memory.zeroFilled_defined _ (by decide))
    (by decide +kernel)

end
end Khorjin
