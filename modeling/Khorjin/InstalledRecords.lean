import Khorjin.DataHistory

set_option autoImplicit false

/-!
# What a configuration has installed

The members of the client and its records that a configuration frame fills and that
steer the data parser. Data frames write measurements into the same records.
-/
namespace Khorjin
open ByteMemory LoopRules RunRules

structure InstalledPmu (F : Type) where
  stationName : Name
  pmuIdcode : UInt16
  freqIsFloatingPoint : Bool
  analogIsFloatingPoint : Bool
  phasorIsFloatingPoint : Bool
  phasorIsPolar : Bool
  numberOfPhasors : UInt16
  numberOfAnalogs : UInt16
  numberOfDigitals : UInt16
  fNom : F
  cfgCnt : UInt16
  phasor : List (Name × Bool × F)
  analog : List (Name × UInt8 × F)
  /-- Mask word, valid inputs, and the name and `isEnabled` of 16 channels. -/
  digital : List (UInt16 × UInt16 × (Fin 16 → Name × Bool))

structure Installed (F : Type) where
  idcode : UInt16
  numPmu : UInt16
  timeBase : UInt32
  dataRate : UInt16
  configTimeStamp : Time F
  running : Bool
  pmus : List (InstalledPmu F)

section
variable {F : Type}

def Phasor.installed (ph : Phasor F) : Name × Bool × F :=
  (ph.channelName, ph.phasorIsVorI, ph.conversionFactor)

def Analog.installed (an : Analog F) : Name × UInt8 × F :=
  (an.channelName, an.analogType, an.conversionFactor)

def Digital.installed (dg : Digital) : UInt16 × UInt16 × (Fin 16 → Name × Bool) :=
  (dg.dgMaskWord, dg.validInputs,
    fun k => ((dg.channel k).channelName, (dg.channel k).isEnabled))

def Configuration.installed (c : Configuration F) : InstalledPmu F where
  stationName := c.stationName
  pmuIdcode := c.pmuIdcode
  freqIsFloatingPoint := c.freqIsFloatingPoint
  analogIsFloatingPoint := c.analogIsFloatingPoint
  phasorIsFloatingPoint := c.phasorIsFloatingPoint
  phasorIsPolar := c.phasorIsPolar
  numberOfPhasors := c.numberOfPhasors
  numberOfAnalogs := c.numberOfAnalogs
  numberOfDigitals := c.numberOfDigitals
  fNom := c.fNom
  cfgCnt := c.cfgCnt
  phasor := c.phasor.map Phasor.installed
  analog := c.analog.map Analog.installed
  digital := c.digital.map Digital.installed

def Client.installation (self : Client F) : Installed F where
  idcode := self.idcode
  numPmu := self.numPmu
  timeBase := self.timeBase
  dataRate := self.dataRate
  configTimeStamp := self.configTimeStamp
  running := self.running
  pmus := self.configuration.map Configuration.installed

def InstalledPmu.layout (x : InstalledPmu F) : Layout where
  phasorIsFloatingPoint := x.phasorIsFloatingPoint
  phasorIsPolar := x.phasorIsPolar
  freqIsFloatingPoint := x.freqIsFloatingPoint
  analogIsFloatingPoint := x.analogIsFloatingPoint
  phasors := x.numberOfPhasors.toNat
  analogs := x.numberOfAnalogs.toNat
  digitals := x.numberOfDigitals.toNat

theorem layouts_of_installation {self self' : Client F}
    (h : self'.installation = self.installation) : self'.layouts = self.layouts := by
  have pmus := congrArg (List.map InstalledPmu.layout) (congrArg Installed.pmus h)
  simp only [Client.installation, List.map_map] at pmus
  exact pmus

theorem storeWord_installed (dg : Digital) (w : UInt16) :
    (dg.storeWord w).installed = dg.installed := by
  have channels : ∀ k : Fin 16, ((dg.storeWord w).channel k).channelName =
      (dg.channel k).channelName ∧
        ((dg.storeWord w).channel k).isEnabled = (dg.channel k).isEnabled := by
    intro k
    simp only [Digital.storeWord, markBits_channel]
    split_ifs
    · exact ⟨rfl, rfl⟩
    · exact ⟨rfl, rfl⟩
  have masks : (dg.storeWord w).dgMaskWord = dg.dgMaskWord ∧
      (dg.storeWord w).validInputs = dg.validInputs := ⟨rfl, rfl⟩
  simp only [Digital.installed, channels, masks]

end

section
variable {F D : Type} [Platform F D]

theorem phasorAt_installed (l : Layout) (m : ℕ → UInt8) (t : Temps F) (p : ℕ) (ph : Phasor F) :
    (phasorAt l m t p ph).installed = ph.installed := by
  obtain ⟨name, kind, factor⟩ := phasorAt_keeps l m t p ph
  rw [Phasor.installed, name, kind, factor, Phasor.installed]

theorem analogAt_installed (l : Layout) (m : ℕ → UInt8) (p : ℕ) (an : Analog F) :
    (analogAt l m p an).installed = an.installed := by
  obtain ⟨name, kind, factor⟩ := analogAt_keeps l m p an
  rw [Analog.installed, name, kind, factor, Analog.installed]

theorem blockAt_installed (c : Configuration F) (m : ℕ → UInt8) (t : Temps F) (p : ℕ) :
    (blockAt c m t p).installed = c.installed := by
  have phasor : (blockAt c m t p).phasor.map Phasor.installed =
      c.phasor.map Phasor.installed := by
    rw [blockAt_phasors]
    exact sweep_map_of_keep _ _ (fun k ph => phasorAt_installed _ _ _ _ ph)
  have analog : (blockAt c m t p).analog.map Analog.installed =
      c.analog.map Analog.installed := by
    rw [blockAt_analogs]
    exact sweep_map_of_keep _ _ (fun k an => analogAt_installed _ _ _ an)
  have digital : (blockAt c m t p).digital.map Digital.installed =
      c.digital.map Digital.installed := by
    rw [blockAt_digitals]
    exact sweep_map_of_keep _ _ (fun k dg => storeWord_installed dg _)
  simp only [Configuration.installed, phasor, analog, digital]
  simp only [blockAt, Configuration.storeSTAT, Configuration.setPhasor, Configuration.setAnalog,
    Configuration.setDigital, Configuration.setFrequency, Configuration.setRocof]

theorem storeData_installation (self : Client F) (t : Temps F) (m : ℕ → UInt8) :
    (self.storeData t m).installation = self.installation := by
  have pmus : (self.storeData t m).configuration.map Configuration.installed =
      self.configuration.map Configuration.installed :=
    sweep_map_of_keep _ _ (fun i c => blockAt_installed c _ _ _)
  rw [Client.installation, pmus]
  rfl

/-- A buffer handed to the data parser. What lies behind the bytes received is arbitrary,
    and so are the local floats. -/
structure DataBuffer (F : Type) where
  bytes : ℕ → UInt8
  size : ℕ
  two_le : 2 ≤ size
  size_lt : size < 2 ^ 31
  temps : Temps F

def readData (self : Client F) (x : DataBuffer F) : Option (ℤ × Client F) :=
  parseDataFrame x.temps self (Memory.total x.bytes) x.size

theorem readData_defined {self : Client F} (exactly : self.ArraysMatch) (x : DataBuffer F) :
    ∃ r s, readData self x = some (r, s) ∧ s.ArraysMatch ∧ s.installation = self.installation := by
  have mapped : ∀ q, (Memory.total x.bytes).Defined 0 q := Memory.total_defined x.bytes 0
  by_cases pass : FramePasses 0x01 self.idcode x.bytes x.size
  · have accepted : readData self x = some (0, self.storeData x.temps x.bytes) :=
      parseDataFrame_of_pass x.two_le pass exactly.arraysInside (mapped _) (mapped _)
    exact ⟨0, _, accepted, storeData_arraysMatch exactly _ _, storeData_installation self _ _⟩
  · have check := (checkFrame_reject_iff x.two_le x.size_lt (mapped _) (mapped _)).2 pass
    have rejected := (parseDataFrame_iff x.temps self (Memory.total x.bytes) x.size x.two_le
      x.size_lt (-1, self)).2 (.inr ⟨check, rfl⟩)
    exact ⟨-1, self, rejected, exactly, rfl⟩

/-- However many buffers are handed to the data parser, what the last configuration has
    installed stays, and with it the layout of every frame to come. -/
theorem data_frames_keep_configuration {self : Client F} (exactly : self.ArraysMatch)
    (buffers : List (DataBuffer F)) :
    (∃ returned final, run readData self buffers = some (returned, final)) ∧
      ∀ before after, buffers = before ++ after → ∀ returned s,
        run readData self before = some (returned, s) →
          s.installation = self.installation ∧ s.layouts = self.layouts ∧
            ∀ i, s.blockBase i = self.blockBase i := by
  constructor
  · have progress : ∀ s : Client F, ∀ x ∈ buffers, s.ArraysMatch →
        ∃ r t, readData s x = some (r, t) ∧ t.ArraysMatch := by
      intro s x _ inv
      obtain ⟨r, t, step, next, _⟩ := readData_defined inv x
      exact ⟨r, t, step, next⟩
    obtain ⟨returned, final, h, _⟩ := run_defined _ progress exactly
    exact ⟨returned, final, h⟩
  · intro before after _ returned s h
    have kept : s.ArraysMatch ∧ s.installation = self.installation := by
      apply run_invariant (fun s => s.ArraysMatch ∧ s.installation = self.installation) _
        ⟨exactly, rfl⟩ h
      rintro s x _ r t ⟨inv, same⟩ step
      obtain ⟨r', t', step', next, same'⟩ := readData_defined inv x
      rw [step] at step'
      cases step'
      exact ⟨next, same'.trans same⟩
    have layouts := layouts_of_installation kept.2
    refine ⟨kept.2, layouts, fun i => ?_⟩
    rw [Client.blockBase, Client.blockBase, layouts]

end

section
attribute [local instance] ExactRational.platform

/-- The second buffer ends behind its two zeros, the third is a frame of 48 bytes. -/
def mixedBuffers : List (DataBuffer ℚ) :=
  [⟨mixedFrame.byte, 48, by decide, by decide, ⟨0, 0⟩⟩,
    ⟨fun _ => 0, 2, by decide, by decide, ⟨1, 1⟩⟩,
    ⟨triggeredFrame.byte, 48, by decide, by decide, ⟨1, 0⟩⟩]

theorem mixed_configuration_stays :
    ∃ final, run readData mixedClient mixedBuffers = some ([0, -1, 0], final) ∧
      final.installation = mixedClient.installation ∧
      final.configuration ≠ mixedClient.configuration := by
  have observed : (run readData mixedClient mixedBuffers).map (fun r =>
      (r.1, decide (r.2.configuration = mixedClient.configuration))) =
        some ([0, -1, 0], false) := by
    decide +kernel
  obtain ⟨⟨returned, final⟩, h, values⟩ := Option.map_eq_some_iff.1 observed
  obtain ⟨rfl, changed⟩ : returned = [0, -1, 0] ∧
      decide (final.configuration = mixedClient.configuration) = false := by
    simpa only [Prod.mk.injEq] using values
  have kept := (data_frames_keep_configuration mixedClient_arraysMatch mixedBuffers).2
    mixedBuffers [] (List.append_nil _).symm _ _ h
  exact ⟨final, h, kept.1, of_decide_eq_false changed⟩

end
end Khorjin
