import Khorjin.ConfigurationRoundTrip
import Khorjin.ExactArithmetic

set_option autoImplicit false

/-!
# The channel block that three helpers share

A block holds the names of all channels of a PMU, followed by their unit words. Each
helper reads the names and the unit words of one kind of channel and skips the others'.
-/
namespace Khorjin
open ByteMemory LoopRules

structure ChannelBlock where
  phasors : List PhasorChannel
  analogs : List AnalogChannel
  digitals : List DigitalWord

namespace ChannelBlock

def encode (x : ChannelBlock) : List UInt8 :=
  x.phasors.flatMap (fun ch => ch.name.toList) ++ x.analogs.flatMap (fun ch => ch.name.toList) ++
    x.digitals.flatMap DigitalWord.encodeNames ++
    x.phasors.flatMap (fun ch => encode32 ch.phunit) ++
    x.analogs.flatMap (fun ch => encode32 ch.anunit) ++
    x.digitals.flatMap DigitalWord.encodeUnit

def namesSize (x : ChannelBlock) : ℕ :=
  16 * (x.phasors.length + x.analogs.length + 16 * x.digitals.length)

def size (x : ChannelBlock) : ℕ :=
  x.namesSize + 4 * (x.phasors.length + x.analogs.length + x.digitals.length)

theorem encode_length (x : ChannelBlock) : x.encode.length = x.size := by
  simp only [encode, List.length_append, phasorNames_length, analogNames_length,
    digitalNames_length, phunits_length, anunits_length, digunits_length, size, namesSize]
  omega

end ChannelBlock

/-- The bytes of some names and those of some unit words. -/
def TableBytes (names nameBytes units unitBytes i : ℕ) : Prop :=
  names ≤ i ∧ i < names + nameBytes ∨ units ≤ i ∧ i < units + unitBytes

instance (names nameBytes units unitBytes : ℕ) :
    DecidablePred (TableBytes names nameBytes units unitBytes) :=
  fun _ => inferInstanceAs (Decidable (_ ∨ _))

section
variable {b : Memory} {names nameBytes units unitBytes : ℕ} {l : List UInt8}

theorem stored_names (h : Stored b names l) (length : l.length = nameBytes) :
    Stored (b.within (TableBytes names nameBytes units unitBytes)) names l :=
  h.within (fun _ low high => .inl ⟨low, length ▸ high⟩)

theorem stored_units (h : Stored b units l) (length : l.length = unitBytes) :
    Stored (b.within (TableBytes names nameBytes units unitBytes)) units l :=
  h.within (fun _ low high => .inr ⟨low, length ▸ high⟩)

end

namespace ChannelBlock

def phasorBytes (x : ChannelBlock) (s : ℕ) : ℕ → Prop :=
  TableBytes s (16 * x.phasors.length) (s + x.namesSize) (4 * x.phasors.length)

def analogBytes (x : ChannelBlock) (s : ℕ) : ℕ → Prop :=
  TableBytes (s + 16 * x.phasors.length) (16 * x.analogs.length)
    (s + x.namesSize + 4 * x.phasors.length) (4 * x.analogs.length)

def digitalBytes (x : ChannelBlock) (s : ℕ) : ℕ → Prop :=
  TableBytes (s + 16 * (x.phasors.length + x.analogs.length)) (256 * x.digitals.length)
    (s + x.namesSize + 4 * (x.phasors.length + x.analogs.length)) (4 * x.digitals.length)

instance (x : ChannelBlock) (s : ℕ) : DecidablePred (x.phasorBytes s) :=
  inferInstanceAs (DecidablePred (TableBytes _ _ _ _))

instance (x : ChannelBlock) (s : ℕ) : DecidablePred (x.analogBytes s) :=
  inferInstanceAs (DecidablePred (TableBytes _ _ _ _))

instance (x : ChannelBlock) (s : ℕ) : DecidablePred (x.digitalBytes s) :=
  inferInstanceAs (DecidablePred (TableBytes _ _ _ _))

theorem bytes_inside (x : ChannelBlock) (s i : ℕ)
    (h : x.phasorBytes s i ∨ x.analogBytes s i ∨ x.digitalBytes s i) :
    s ≤ i ∧ i < s + x.size := by
  simp only [phasorBytes, analogBytes, digitalBytes, TableBytes, namesSize] at h
  unfold size namesSize
  omega

theorem bytes_disjoint (x : ChannelBlock) (s i : ℕ) :
    ¬ (x.phasorBytes s i ∧ x.analogBytes s i) ∧ ¬ (x.phasorBytes s i ∧ x.digitalBytes s i) ∧
      ¬ (x.analogBytes s i ∧ x.digitalBytes s i) := by
  simp only [phasorBytes, analogBytes, digitalBytes, TableBytes, namesSize]
  omega

theorem parts {x : ChannelBlock} {b : Memory} {s : ℕ} (h : Stored b s x.encode) :
    (Stored b s (x.phasors.flatMap (fun ch => ch.name.toList)) ∧
        Stored b (s + x.namesSize) (x.phasors.flatMap (fun ch => encode32 ch.phunit))) ∧
      (Stored b (s + 16 * x.phasors.length) (x.analogs.flatMap (fun ch => ch.name.toList)) ∧
        Stored b (s + x.namesSize + 4 * x.phasors.length)
          (x.analogs.flatMap (fun ch => encode32 ch.anunit))) ∧
      Stored b (s + 16 * (x.phasors.length + x.analogs.length))
          (x.digitals.flatMap DigitalWord.encodeNames) ∧
        Stored b (s + x.namesSize + 4 * (x.phasors.length + x.analogs.length))
          (x.digitals.flatMap DigitalWord.encodeUnit) := by
  simp only [encode, stored_append_iff, List.length_append, phasorNames_length,
    analogNames_length, digitalNames_length, phunits_length, anunits_length, and_assoc] at h
  obtain ⟨phasorNames, analogNames, digitalNames, phunits, anunits, digunits⟩ := h
  unfold namesSize
  exact ⟨⟨phasorNames, phunits.move (by omega)⟩, ⟨analogNames, anunits.move (by omega)⟩,
    digitalNames.move (by omega), digunits.move (by omega)⟩

end ChannelBlock

section
variable {F D : Type} [Platform F D]

/-- The counts of the record are those of the block. -/
structure ChannelBlock.CountedBy (x : ChannelBlock) (c : Configuration F) : Prop where
  phasors : c.numberOfPhasors.toNat = x.phasors.length
  analogs : c.numberOfAnalogs.toNat = x.analogs.length
  digitals : c.numberOfDigitals.toNat = x.digitals.length

variable {c : Configuration F} {x : ChannelBlock} {b : Memory} {s : ℕ}

theorem ChannelBlock.CountedBy.units (counts : x.CountedBy c) (s : ℕ) :
    c.layout.phunits s = s + x.namesSize ∧
      c.layout.anunits (s + 16 * x.phasors.length) =
        s + x.namesSize + 4 * x.phasors.length ∧
      c.layout.digunits (s + 16 * (x.phasors.length + x.analogs.length)) =
        s + x.namesSize + 4 * (x.phasors.length + x.analogs.length) := by
  have phasors : c.layout.phasors = x.phasors.length := counts.phasors
  have analogs : c.layout.analogs = x.analogs.length := counts.analogs
  have digitals : c.layout.digitals = x.digitals.length := counts.digitals
  unfold Layout.phunits Layout.anunits Layout.digunits ChannelBlock.namesSize
  omega

theorem preparePhsor_of_stored (counts : x.CountedBy c)
    (names : Stored b s (x.phasors.flatMap (fun ch => ch.name.toList)))
    (units : Stored b (s + x.namesSize) (x.phasors.flatMap (fun ch => encode32 ch.phunit))) :
    preparePhsor c b s =
      some (x.phasors.map (fun ch => ch.received c.phasorIsFloatingPoint)) := by
  have count : c.layout.phasors = x.phasors.length := counts.phasors
  obtain ⟨place, _⟩ := counts.units s
  have mapped := names.1
  have mapped' := units.1
  rw [phasorNames_length] at mapped
  rw [phunits_length] at mapped'
  rw [preparePhsor_iff, place, count]
  exact ⟨⟨mapped, mapped'⟩, phasorsAt_of_holds count names.2 (place ▸ units.2)⟩

theorem prepareAnalog_of_stored (counts : x.CountedBy c)
    (names : Stored b (s + 16 * x.phasors.length)
      (x.analogs.flatMap (fun ch => ch.name.toList)))
    (units : Stored b (s + x.namesSize + 4 * x.phasors.length)
      (x.analogs.flatMap (fun ch => encode32 ch.anunit))) :
    prepareAnalog c b (s + 16 * x.phasors.length) =
      some (x.analogs.map AnalogChannel.received) := by
  have count : c.layout.analogs = x.analogs.length := counts.analogs
  obtain ⟨_, place, _⟩ := counts.units s
  have mapped := names.1
  have mapped' := units.1
  rw [analogNames_length] at mapped
  rw [anunits_length] at mapped'
  rw [prepareAnalog_iff, place, count]
  exact ⟨⟨mapped, fun j hj => mapped'.mono (by omega) (by omega)⟩,
    analogsAt_of_holds count names.2 (place ▸ units.2)⟩

theorem prepareDigital_of_stored (counts : x.CountedBy c)
    (names : Stored b (s + 16 * (x.phasors.length + x.analogs.length))
      (x.digitals.flatMap DigitalWord.encodeNames))
    (units : Stored b (s + x.namesSize + 4 * (x.phasors.length + x.analogs.length))
      (x.digitals.flatMap DigitalWord.encodeUnit)) :
    prepareDigital c b (s + 16 * (x.phasors.length + x.analogs.length)) =
      some (x.digitals.map DigitalWord.received) := by
  have count : c.layout.digitals = x.digitals.length := counts.digitals
  obtain ⟨_, _, place⟩ := counts.units s
  have mapped := names.1
  have mapped' := units.1
  rw [digitalNames_length] at mapped
  rw [digunits_length] at mapped'
  rw [prepareDigital_iff, place, count]
  exact ⟨⟨mapped, mapped'⟩, digitalsAt_of_holds count names.2 (place ▸ units.2)⟩

end

theorem paddedName_toList (name : SentName) :
    (paddedName name).toList = name.toList ++ [0, 0, 0, 0] := by
  rw [paddedName, copyName, List.Vector.toList_append]
  rfl

section
variable {K : Type} [Field K] [CharZero K] [Platform K K] [ExactArith K]

theorem scalePhunit_exact (w : UInt32) : (scalePhunit w : K) = (w.toNat : K) / 10 ^ 5 := by
  rw [scalePhunit]
  simp only [ExactArith.narrow, ExactArith.mulD, ExactArith.widen, ExactArith.const,
    ExactArith.ofInt]
  push_cast
  ring

theorem scalePhunit_recovers (w : UInt32) : (scalePhunit w : K) * 10 ^ 5 = (w.toNat : K) := by
  rw [scalePhunit_exact]
  exact div_mul_cancel₀ _ (by norm_num)

/-- Without rounding, the factors that were sent can be read off the records. -/
theorem raw_factors_recovered {f : Cfg2} (fits : f.size ≤ BUFER_LENGTH) (uniform : f.Uniform)
    {self : Client K} (known : self.idcode = f.idcode) :
    ∃ self', parseConfigurationFrame self f.buffer f.size = some (0, self') ∧
      List.Forall₂ (fun (c : Configuration K) r => ¬ r.layout.phasorIsFloatingPoint →
        c.phasor.map (fun ph => ph.conversionFactor * 10 ^ 5) =
          r.phasors.map (fun ch => (ch.factor.toNat : K))) self'.configuration f.records := by
  obtain ⟨self', parsed, _, _, _, records⟩ := roundTrips_of_uniform (F := K) fits uniform self known
  refine ⟨self', parsed, records.imp (fun c r carries integer => ?_)⟩
  have scaled := congrArg (List.map (fun x : K => x * 10 ^ 5)) (carries.phasorFactors integer)
  simpa only [List.map_map, Function.comp_def, scalePhunit_recovers] using scaled

/-- What the helper for phasors makes of a PHUNIT word whose type byte is 0 or 1. -/
def PhasorChannel.exact (floating : Bool) (ch : PhasorChannel) : Phasor K :=
  { Phasor.zero with
    channelName := paddedName ch.name
    phasorIsVorI := ch.phunit.toNat / 2 ^ 24 == 0
    conversionFactor := if floating then 1 else ((ch.phunit.toNat % 2 ^ 24 : ℕ) : K) / 10 ^ 5 }

theorem received_eq_exact (floating : Bool) (ch : PhasorChannel) :
    (ch.received floating : Phasor K) = ch.exact floating := by
  have lt := ch.phunit.toNat_lt
  have e : (0x1000000 : UInt32).toNat = 2 ^ 24 := rfl
  have kind : ch.isVoltage = (ch.phunit.toNat / 2 ^ 24 == 0) := by
    rw [PhasorChannel.isVoltage, Bool.eq_iff_iff, beq_iff_eq, beq_iff_eq, ← UInt8.toNat_inj,
      UInt32.toNat_toUInt8, UInt32.toNat_div, e]
    change ch.phunit.toNat / 2 ^ 24 % 2 ^ 8 = 0 ↔ _
    omega
  have factor : (scalePhunit ch.factor : K) = ((ch.phunit.toNat % 2 ^ 24 : ℕ) : K) / 10 ^ 5 := by
    rw [scalePhunit_exact, PhasorChannel.factor, UInt32.toNat_mod, e]
  have one : (FloatArith.ofInt 1 : K) = 1 := by
    rw [ExactArith.ofInt, Int.cast_one]
  rw [PhasorChannel.received, PhasorChannel.exact, kind, factor, one]

/-- On a block with the record's own counts each helper returns the channels of its kind,
    reading bytes of the block only, and no byte that another helper reads. -/
theorem channel_helpers_share_one_layout {c : Configuration K} {x : ChannelBlock}
    (counts : x.CountedBy c) {b : Memory} {s : ℕ} (block : Stored b s x.encode) :
    (preparePhsor c b s = some (x.phasors.map (fun ch => ch.exact c.phasorIsFloatingPoint)) ∧
        preparePhsor c (b.within (x.phasorBytes s)) s = preparePhsor c b s) ∧
      (prepareAnalog c b (s + 16 * x.phasors.length) =
          some (x.analogs.map AnalogChannel.received) ∧
        prepareAnalog c (b.within (x.analogBytes s)) (s + 16 * x.phasors.length) =
          prepareAnalog c b (s + 16 * x.phasors.length)) ∧
      (prepareDigital c b (s + 16 * (x.phasors.length + x.analogs.length)) =
          some (x.digitals.map DigitalWord.received) ∧
        prepareDigital c (b.within (x.digitalBytes s))
            (s + 16 * (x.phasors.length + x.analogs.length)) =
          prepareDigital c b (s + 16 * (x.phasors.length + x.analogs.length))) ∧
      ∀ i, (x.phasorBytes s i ∨ x.analogBytes s i ∨ x.digitalBytes s i →
          s ≤ i ∧ i < s + 16 * (x.phasors.length + x.analogs.length + 16 * x.digitals.length) +
            4 * (x.phasors.length + x.analogs.length + x.digitals.length)) ∧
        ¬ (x.phasorBytes s i ∧ x.analogBytes s i) ∧ ¬ (x.phasorBytes s i ∧ x.digitalBytes s i) ∧
          ¬ (x.analogBytes s i ∧ x.digitalBytes s i) := by
  obtain ⟨⟨phasorNames, phunits⟩, ⟨analogNames, anunits⟩, digitalNames, digunits⟩ :=
    ChannelBlock.parts block
  have each : x.phasors.map (fun ch => (ch.received c.phasorIsFloatingPoint : Phasor K)) =
      x.phasors.map (fun ch => ch.exact c.phasorIsFloatingPoint) :=
    List.map_congr_left (fun ch _ => received_eq_exact _ ch)
  refine ⟨?_, ?_, ?_, fun i => ⟨fun h => ?_, x.bytes_disjoint s i⟩⟩
  · have whole := preparePhsor_of_stored counts phasorNames phunits
    have alone := preparePhsor_of_stored counts (stored_names phasorNames (phasorNames_length _))
      (stored_units phunits (phunits_length _))
    exact ⟨each ▸ whole, alone.trans whole.symm⟩
  · have whole := prepareAnalog_of_stored counts analogNames anunits
    have alone := prepareAnalog_of_stored counts (stored_names analogNames (analogNames_length _))
      (stored_units anunits (anunits_length _))
    exact ⟨whole, alone.trans whole.symm⟩
  · have whole := prepareDigital_of_stored counts digitalNames digunits
    have alone := prepareDigital_of_stored counts
      (stored_names digitalNames (digitalNames_length _))
      (stored_units digunits (digunits_length _))
    exact ⟨whole, alone.trans whole.symm⟩
  · rw [Nat.add_assoc]
    exact x.bytes_inside s i h

end

section
attribute [local instance] ExactRational.platform

def smallRecord : Configuration ℚ :=
  { Configuration.zero with numberOfPhasors := 2, numberOfAnalogs := 1, numberOfDigitals := 1 }

def smallBlock : ChannelBlock where
  phasors := [⟨.replicate 16 86, 0x00000064⟩, ⟨.replicate 16 73, 0x010186A0⟩]
  analogs := [⟨.replicate 16 65, 0x01000005⟩]
  digitals := [⟨fun _ => .replicate 16 68, 0xFFFF, 0x0005⟩]

theorem small_block_is_read :
    ∃ phasors, preparePhsor smallRecord (Memory.zeroFilled BUFER_LENGTH
        ([0xAA, 0x31, 0] ++ smallBlock.encode)) 3 = some phasors ∧
      phasors.map (fun ph => (ph.phasorIsVorI, ph.conversionFactor)) =
        [(true, 1 / 1000), (false, 1)] := by
  have counts : smallBlock.CountedBy smallRecord := ⟨rfl, rfl, rfl⟩
  have length : ([0xAA, 0x31, 0] ++ smallBlock.encode).length ≤ BUFER_LENGTH := by
    rw [List.length_append, ChannelBlock.encode_length]
    decide
  have block := stored_zeroFilled [0xAA, 0x31, 0] smallBlock.encode length
  exact ⟨_, (channel_helpers_share_one_layout counts block).1.1, by decide +kernel⟩

end
end Khorjin
