import Khorjin.AlteredFrames
import Khorjin.VectorArithmetic

set_option autoImplicit false

/-!
# Phasors and analogs as integers

What the 16-bit words of a data frame are decoded to, against what the sender put in
them. Arithmetic is read as exact reals.
-/
namespace Khorjin
open ByteMemory LoopRules

section
variable {F : Type}

theorem phasorWidth_integer {l : Layout} (integer : l.phasorIsFloatingPoint = false) :
    l.phasorWidth = 4 := by
  rw [Layout.phasorWidth, integer, if_neg Bool.false_ne_true]

theorem phasorSlot_le {self : Client F} {i j : ℕ} {c : Configuration F}
    (hi : i < self.numPmu.toNat) (hc : self.configuration[i]? = some c)
    (integer : c.phasorIsFloatingPoint = false) (hj : j < c.numberOfPhasors.toNat) :
    self.blockBase i + 2 + 4 * j + 4 ≤ self.dataEnd := by
  have last : self.blockBase (i + 1) ≤ self.dataEnd := blockBase_mono self hi
  rw [blockBase_succ hc] at last
  obtain ⟨_, freq, analog, digital⟩ := c.layout.offsets_le
  have hj : j < c.layout.phasors := hj
  have offset : c.layout.freqOffset = 2 + 4 * c.layout.phasors := by
    rw [Layout.freqOffset, phasorWidth_integer integer]
  omega

variable {D : Type} [Platform F D] {c : Configuration F} {j : ℕ}

theorem blockAt_integerPhasor (integer : c.phasorIsFloatingPoint = false)
    (hj : j < c.numberOfPhasors.toNat) {ph : Phasor F} (hph : c.phasor[j]? = some ph)
    (m : ℕ → UInt8) (t : Temps F) (p : ℕ) :
    (blockAt c m t p).phasor[j]? = some (phasorAt c.layout m t (p + 2 + 4 * j) ph) := by
  rw [blockAt_phasor hj hph, phasorWidth_integer integer]

theorem blockAt_integerAnalog (integer : c.analogIsFloatingPoint = false)
    (hj : j < c.numberOfAnalogs.toNat) {an : Analog F} (han : c.analog[j]? = some an)
    (m : ℕ → UInt8) (t : Temps F) (p : ℕ) : (blockAt c m t p).analog[j]? =
      some (analogAt c.layout m (p + c.layout.analogOffset + 2 * j) an) := by
  have width : c.layout.analogWidth = 2 := if_neg (ne_true_of_eq_false integer)
  rw [blockAt_analog hj han, width]

theorem exists_integerPhasor_iff {P : Phasor F → Phasor F → Prop}
    (integer : c.phasorIsFloatingPoint = false) (inside : c.CountsInside)
    (hj : j < c.numberOfPhasors.toNat) (m : ℕ → UInt8) (t : Temps F) (p : ℕ) :
    (∃ ph ph', c.phasor[j]? = some ph ∧ (blockAt c m t p).phasor[j]? = some ph' ∧ P ph ph') ↔
      ∀ ph, c.phasor[j]? = some ph → P ph (phasorAt c.layout m t (p + 2 + 4 * j) ph) := by
  have lt : j < c.phasor.length := lt_of_lt_of_le hj inside.1
  have hph : c.phasor[j]? = some c.phasor[j] := List.getElem?_eq_getElem lt
  rw [blockAt_integerPhasor integer hj hph m t p, hph]
  simp

theorem exists_integerAnalog_iff {P : Analog F → Analog F → Prop}
    (integer : c.analogIsFloatingPoint = false) (inside : c.CountsInside)
    (hj : j < c.numberOfAnalogs.toNat) (m : ℕ → UInt8) (t : Temps F) (p : ℕ) :
    (∃ an an', c.analog[j]? = some an ∧ (blockAt c m t p).analog[j]? = some an' ∧ P an an') ↔
      ∀ an, c.analog[j]? = some an →
        P an (analogAt c.layout m (p + c.layout.analogOffset + 2 * j) an) := by
  have lt : j < c.analog.length := lt_of_lt_of_le hj inside.2.1
  have han : c.analog[j]? = some c.analog[j] := List.getElem?_eq_getElem lt
  rw [blockAt_integerAnalog integer hj han m t p, han]
  simp

end

/-- Every accepted frame of `n` bytes whose second word for phasor `j` of PMU `i` is `w`
    stores this angle. -/
def AngleDetermined {F D : Type} [Platform F D] (self : Client F) (n i j : ℕ) (w : UInt16)
    (angle : F) : Prop :=
  ∀ t b self', parseDataFrame t self b n = some (0, self') →
    word16 b.byte (slotBase self.configuration i + 2 + 4 * j + 2) = w →
    ∀ c' ph', self'.configuration[i]? = some c' → c'.phasor[j]? = some ph' → ph'.angle = angle

structure RectangularArrives (re im : UInt16) (ph ph' : Phasor ℝ) : Prop where
  magnitude : ph'.magnitude ^ 2 =
    ph.conversionFactor ^ 2 * ((signed re : ℝ) ^ 2 + (signed im : ℝ) ^ 2)
  angle : ph'.angle = vectorAngle (signed re) (signed im)

/-- The channels of PMU `i` that `m` carries as integers arrive in the record `c'`. -/
structure IntegerChannelsArrive [Platform ℝ ℝ] (client : Client ℝ) (m : ℕ → UInt8) (n i : ℕ)
    (c c' : Configuration ℝ) : Prop where
  polar : c.phasorIsFloatingPoint = false → c.phasorIsPolar = true →
    ∀ j < c.numberOfPhasors.toNat, ∃ ph ph', c.phasor[j]? = some ph ∧ c'.phasor[j]? = some ph' ∧
      ph'.magnitude = ph.conversionFactor *
        (word16 m (slotBase client.configuration i + 2 + 4 * j)).toNat ∧
      AngleDetermined client n i j
        (word16 m (slotBase client.configuration i + 2 + 4 * j + 2)) ph'.angle
  rectangular : c.phasorIsFloatingPoint = false → c.phasorIsPolar = false →
    ∀ j < c.numberOfPhasors.toNat, ∃ ph ph', c.phasor[j]? = some ph ∧ c'.phasor[j]? = some ph' ∧
      RectangularArrives (word16 m (slotBase client.configuration i + 2 + 4 * j))
        (word16 m (slotBase client.configuration i + 2 + 4 * j + 2)) ph ph'
  analog : c.analogIsFloatingPoint = false → ∀ j < c.numberOfAnalogs.toNat,
    ∃ an an', c.analog[j]? = some an ∧ c'.analog[j]? = some an' ∧
      an'.value = an.conversionFactor *
        (signed (word16 m (analogSlot client.configuration i c + 2 * j)) : ℝ)

/-- No sign is lost, and nothing is left of the local floats. -/
structure IntegerChannelsPlain (cs : List (Configuration ℝ)) (m : ℕ → UInt8) (i : ℕ)
    (c : Configuration ℝ) : Prop where
  polar : c.phasorIsFloatingPoint = false → c.phasorIsPolar = true →
    ∀ j < c.numberOfPhasors.toNat, ∀ ph, c.phasor[j]? = some ph → ph.conversionFactor = 0
  rectangular : c.phasorIsFloatingPoint = false → c.phasorIsPolar = false →
    ∀ j < c.numberOfPhasors.toNat, (word16 m (slotBase cs i + 2 + 4 * j)).toNat < 2 ^ 15 ∧
      (word16 m (slotBase cs i + 2 + 4 * j + 2)).toNat < 2 ^ 15
  analog : c.analogIsFloatingPoint = false → ∀ j < c.numberOfAnalogs.toNat,
    ∀ an, c.analog[j]? = some an → an.conversionFactor = 0 ∨
      (word16 m (analogSlot cs i c + 2 * j)).toNat < 2 ^ 15

section
variable [Platform ℝ ℝ] [ExactRealArith]

theorem phasorAt_polar {l : Layout} (integer : l.phasorIsFloatingPoint = false)
    (polar : l.phasorIsPolar = true) (m : ℕ → UInt8) (t : Temps ℝ) (p : ℕ) (ph : Phasor ℝ) :
    (phasorAt l m t p ph).magnitude = t.tempFloat_1 * ph.conversionFactor ∧
      (phasorAt l m t p ph).angle = t.tempFloat_2 * ph.conversionFactor := by
  rw [phasorAt, integer, if_neg Bool.false_ne_true, if_pos polar]
  exact ⟨ExactArith.mul _ _, ExactArith.mul _ _⟩

theorem phasorAt_rectangular {l : Layout} (integer : l.phasorIsFloatingPoint = false)
    (rectangular : l.phasorIsPolar = false) (m : ℕ → UInt8) (t : Temps ℝ) (p : ℕ)
    (ph : Phasor ℝ) :
    (phasorAt l m t p ph).magnitude =
        √(((word16 m p).toNat : ℝ) ^ 2 + ((word16 m (p + 2)).toNat : ℝ) ^ 2) *
          ph.conversionFactor ∧
      (phasorAt l m t p ph).angle =
        vectorAngle (word16 m p).toNat (word16 m (p + 2)).toNat := by
  rw [phasorAt, integer, if_neg Bool.false_ne_true, rectangular, if_neg Bool.false_ne_true]
  simp only [ExactArith.narrow, ExactArith.mulD, ExactArith.widen, magnitudeOf_exact,
    angleOf_exact, floatOfWord_exact, and_self]

theorem rectangular_arrives_iff {l : Layout} (integer : l.phasorIsFloatingPoint = false)
    (rectangular : l.phasorIsPolar = false) (m : ℕ → UInt8) (t : Temps ℝ) (p : ℕ)
    (ph : Phasor ℝ) :
    RectangularArrives (word16 m p) (word16 m (p + 2)) ph (phasorAt l m t p ph) ↔
      (word16 m p).toNat < 2 ^ 15 ∧ (word16 m (p + 2)).toNat < 2 ^ 15 := by
  obtain ⟨magnitude, angle⟩ := phasorAt_rectangular integer rectangular m t p ph
  constructor
  · intro h
    have same := angle.symm.trans h.angle
    have quadrant := quadrant_of_vectorAngle_eq (Nat.cast_nonneg _) (Nat.cast_nonneg _) same
    obtain ⟨re, im⟩ : 0 ≤ signed (word16 m p) ∧ 0 ≤ signed (word16 m (p + 2)) := by
      exact_mod_cast quadrant
    exact ⟨(signed_nonneg_iff _).1 re, (signed_nonneg_iff _).1 im⟩
  · rintro ⟨re, im⟩
    have re' : (signed (word16 m p) : ℝ) = _ := (signed_cast_eq_iff _).2 re
    have im' : (signed (word16 m (p + 2)) : ℝ) = _ := (signed_cast_eq_iff _).2 im
    constructor
    · rw [magnitude, re', im', mul_pow, mul_comm,
        Real.sq_sqrt (add_nonneg (sq_nonneg _) (sq_nonneg _))]
    · rw [angle, re', im']

theorem analog_arrives_iff {l : Layout} (integer : l.analogIsFloatingPoint = false)
    (m : ℕ → UInt8) (p : ℕ) (an : Analog ℝ) :
    (analogAt l m p an).value = an.conversionFactor * (signed (word16 m p) : ℝ) ↔
      an.conversionFactor = 0 ∨ (word16 m p).toNat < 2 ^ 15 := by
  have lost : ((word16 m p).toNat : ℝ) = signed (word16 m p) ↔ (word16 m p).toNat < 2 ^ 15 :=
    eq_comm.trans (signed_cast_eq_iff _)
  rw [analogAt_integer integer, mul_comm, mul_eq_mul_left_iff, or_comm, lost]

section
variable {t : Temps ℝ} {self self' : Client ℝ} {b : Memory} {i : ℕ} {c : Configuration ℝ}

/-- The angle of an integer polar phasor stays the same in all frames with the same word in
    its slot only where the factor, and with it the angle, is zero. -/
theorem polar_arrives_iff (run : parseDataFrame t self b self.expectedSize = some (0, self'))
    (hi : i < self.numPmu.toNat) (hc : self.configuration[i]? = some c)
    (integer : c.phasorIsFloatingPoint = false) (polar : c.phasorIsPolar = true) {j : ℕ}
    (hj : j < c.numberOfPhasors.toNat) {ph : Phasor ℝ} (hph : c.phasor[j]? = some ph) :
    ((phasorAt c.layout b.byte (self.blockTemps b.byte t i) (self.blockBase i + 2 + 4 * j)
          ph).magnitude = ph.conversionFactor *
        (word16 b.byte (slotBase self.configuration i + 2 + 4 * j)).toNat ∧
      AngleDetermined self self.expectedSize i j
        (word16 b.byte (slotBase self.configuration i + 2 + 4 * j + 2))
        (phasorAt c.layout b.byte (self.blockTemps b.byte t i) (self.blockBase i + 2 + 4 * j)
          ph).angle) ↔ ph.conversionFactor = 0 := by
  have base := slotBase_get hc
  have values : ∀ (t : Temps ℝ) (m : ℕ → UInt8), _ := fun t m =>
    phasorAt_polar (l := c.layout) integer polar m (self.blockTemps m t i)
      (self.blockBase i + 2 + 4 * j) ph
  rw [base, (values t b.byte).1, (values t b.byte).2]
  constructor
  · rintro ⟨_, determined⟩
    obtain ⟨t', b', run', same, differ⟩ := staleFloat_varies run hi
    have inside := phasorSlot_le hi hc integer hj
    have word : word16 b'.byte (slotBase self.configuration i + 2 + 4 * j + 2) =
        word16 b.byte (self.blockBase i + 2 + 4 * j + 2) := by
      rw [base]
      exact same.word16 (by omega) (by omega)
    have angle := determined t' b' _ run' word _ _ (accepted_get run' hi hc).2
      (blockAt_integerPhasor integer hj hph _ _ _)
    rw [(values t' b'.byte).2, blockTemps_eq_staleFloats, blockTemps_eq_staleFloats,
      mul_eq_mul_right_iff] at angle
    exact angle.resolve_left differ
  · intro zero
    refine ⟨by rw [zero, mul_zero, zero_mul], ?_⟩
    intro t' b' s run' _ c' ph' hc' hph'
    obtain rfl := Option.some.inj ((accepted_get run' hi hc).2.symm.trans hc')
    obtain rfl := Option.some.inj ((blockAt_integerPhasor integer hj hph _ _ _).symm.trans hph')
    rw [(values t' b'.byte).2, zero, mul_zero, mul_zero]

/-- The integer channels of a PMU arrive exactly when every polar phasor has the factor zero,
    no component of a rectangular phasor is negative, and no analog with a factor is. -/
theorem integer_channels_arrive_iff
    (run : parseDataFrame t self b self.expectedSize = some (0, self'))
    (hi : i < self.numPmu.toNat) (hc : self.configuration[i]? = some c) :
    ∃ c', self'.configuration[i]? = some c' ∧
      (IntegerChannelsArrive self b.byte self.expectedSize i c c' ↔
        IntegerChannelsPlain self.configuration b.byte i c) := by
  obtain ⟨counts, stored⟩ := accepted_get run hi hc
  have base := slotBase_get hc
  have analogBase := analogSlot_eq hc
  refine ⟨_, stored, ?_⟩
  constructor
  · intro h
    constructor
    case polar =>
      intro integer polar j hj ph hph
      have arrives := (exists_integerPhasor_iff integer counts hj _ _ _).1
        (h.polar integer polar j hj) ph hph
      exact (polar_arrives_iff run hi hc integer polar hj hph).1 arrives
    case rectangular =>
      intro integer rectangular j hj
      have arrives := h.rectangular integer rectangular j hj
      obtain ⟨ph, _, hph, _⟩ := h.rectangular integer rectangular j hj
      rw [base] at arrives ⊢
      exact (rectangular_arrives_iff integer rectangular _ _ _ _).1
        ((exists_integerPhasor_iff integer counts hj _ _ _).1 arrives ph hph)
    case analog =>
      intro integer j hj an han
      have arrives := (exists_integerAnalog_iff integer counts hj _ _ _).1
        (h.analog integer j hj) an han
      rw [analogBase] at arrives ⊢
      exact (analog_arrives_iff integer _ _ _).1 arrives
  · intro h
    constructor
    case polar =>
      intro integer polar j hj
      refine (exists_integerPhasor_iff integer counts hj _ _ _).2 (fun ph hph => ?_)
      exact (polar_arrives_iff run hi hc integer polar hj hph).2 (h.polar integer polar j hj ph hph)
    case rectangular =>
      intro integer rectangular j hj
      refine (exists_integerPhasor_iff integer counts hj _ _ _).2 (fun ph hph => ?_)
      have nonneg := h.rectangular integer rectangular j hj
      rw [base] at nonneg ⊢
      exact (rectangular_arrives_iff integer rectangular _ _ _ _).2 nonneg
    case analog =>
      intro integer j hj
      refine (exists_integerAnalog_iff integer counts hj _ _ _).2 (fun an han => ?_)
      have nonneg := h.analog integer j hj an han
      rw [analogBase] at nonneg ⊢
      exact (analog_arrives_iff integer _ _ _).2 nonneg

end
end

noncomputable section
attribute [local instance] ExactReal.binary32

def vectorPhasor : Phasor ℝ := { Phasor.zero with conversionFactor := 1 }
def vectorAnalog : Analog ℝ := { Analog.zero with conversionFactor := 1 }

def vectorRecord : Configuration ℝ :=
  { Configuration.zero with
    numberOfPhasors := 1
    numberOfAnalogs := 1
    phasor := [vectorPhasor]
    analog := [vectorAnalog] }

def vectorClient : Client ℝ :=
  { Client.fresh 7 0 [] [] with
    numPmu := 1
    timeBase := 1000
    configuration := [vectorRecord] }

theorem vectorClient_reads {l : List UInt8}
    (pass : FramePasses 0x01 7 (Memory.zeroFilled BUFER_LENGTH l).byte 28) :
    parseDataFrame ⟨0, 0⟩ vectorClient (Memory.zeroFilled BUFER_LENGTH l)
        vectorClient.expectedSize =
      some (0, vectorClient.storeData ⟨0, 0⟩ (Memory.zeroFilled BUFER_LENGTH l).byte) := by
  have exactly : vectorClient.ArraysMatch :=
    ⟨rfl, fun c hc => List.mem_singleton.1 hc ▸ ⟨rfl, rfl, rfl⟩⟩
  exact parseDataFrame_zeroFilled _ exactly (by decide) (by decide) (by decide) pass

def westwardFrame : Memory :=
  Memory.zeroFilled BUFER_LENGTH (appendChk
    ([0xAA, 0x01, 0x00, 0x1C, 0x00, 0x07, 0, 0, 0, 1, 0, 0, 0, 0] ++
      [0x00, 0x00, 0xFF, 0xFF, 0x00, 0x00, 0, 0, 0, 0, 0xFF, 0xFF]))

def northeastwardFrame : Memory :=
  Memory.zeroFilled BUFER_LENGTH (appendChk
    ([0xAA, 0x01, 0x00, 0x1C, 0x00, 0x07, 0, 0, 0, 1, 0, 0, 0, 0] ++
      [0x00, 0x00, 0x00, 0x03, 0x00, 0x04, 0, 0, 0, 0, 0x00, 0x05]))

theorem westward_words : word16 westwardFrame.byte 16 = 0xFFFF ∧ word16 westwardFrame.byte 18 = 0 ∧
    word16 westwardFrame.byte 24 = 0xFFFF := by
  decide +kernel

theorem westward_phasor (t : Temps ℝ) :
    (phasorAt vectorRecord.layout westwardFrame.byte t 16 vectorPhasor).magnitude = 65535 ∧
      (phasorAt vectorRecord.layout westwardFrame.byte t 16 vectorPhasor).angle = 0 := by
  obtain ⟨re, im, _⟩ := westward_words
  obtain ⟨magnitude, angle⟩ := phasorAt_rectangular (l := vectorRecord.layout) rfl rfl
    westwardFrame.byte t 16 vectorPhasor
  have full : ((0xFFFF : UInt16).toNat : ℝ) = 65535 := by exact_mod_cast rfl
  have zero : ((0 : UInt16).toNat : ℝ) = 0 := Nat.cast_zero
  have one : vectorPhasor.conversionFactor = 1 := rfl
  have east : Complex.arg ⟨65535, 0⟩ = 0 := Complex.arg_eq_zero_iff.2 ⟨by norm_num, rfl⟩
  rw [magnitude, angle, re, im, full, zero, one, vectorAngle, east]
  constructor
  · rw [zero_pow (by decide), add_zero, Real.sqrt_sq (by norm_num), mul_one]
  · rw [zero_mul, zero_div]

theorem westward_analog :
    (analogAt vectorRecord.layout westwardFrame.byte 24 vectorAnalog).value = 65535 := by
  have full : ((0xFFFF : UInt16).toNat : ℝ) = 65535 := by exact_mod_cast rfl
  have one : vectorAnalog.conversionFactor = 1 := rfl
  rw [analogAt_integer rfl, westward_words.2.2, full, one, mul_one]

/-- The vector (-1, 0) comes out as 65535 at the angle zero, and the analog -1 as 65535. -/
theorem minus_one_decodes_as_65535 :
    ∃ c' ph' an', vectorClient.configuration[0]? = some vectorRecord ∧
      parseDataFrame ⟨0, 0⟩ vectorClient westwardFrame vectorClient.expectedSize =
        some (0, vectorClient.storeData ⟨0, 0⟩ westwardFrame.byte) ∧
      (vectorClient.storeData ⟨0, 0⟩ westwardFrame.byte).configuration[0]? = some c' ∧
      c'.phasor[0]? = some ph' ∧ ph'.magnitude = 65535 ∧ ph'.angle = 0 ∧
      c'.analog[0]? = some an' ∧ an'.value = 65535 ∧
      signed (word16 westwardFrame.byte 16) = -1 ∧ signed (word16 westwardFrame.byte 24) = -1 ∧
      ¬ IntegerChannelsArrive vectorClient westwardFrame.byte vectorClient.expectedSize 0
        vectorRecord c' := by
  obtain ⟨re, _, value⟩ := westward_words
  have run : parseDataFrame ⟨0, 0⟩ vectorClient westwardFrame vectorClient.expectedSize =
      some (0, vectorClient.storeData ⟨0, 0⟩ westwardFrame.byte) :=
    vectorClient_reads (by decide +kernel)
  have hi : 0 < vectorClient.numPmu.toNat := by decide
  have hc : vectorClient.configuration[0]? = some vectorRecord := rfl
  have stored := storeData_get hi hc ⟨0, 0⟩ westwardFrame.byte
  have phasor := blockAt_integerPhasor (c := vectorRecord) (j := 0) rfl (by decide) rfl
    westwardFrame.byte (vectorClient.blockTemps westwardFrame.byte ⟨0, 0⟩ 0) 14
  have analog := blockAt_integerAnalog (c := vectorRecord) (j := 0) rfl (by decide) rfl
    westwardFrame.byte (vectorClient.blockTemps westwardFrame.byte ⟨0, 0⟩ 0) 14
  obtain ⟨magnitude, angle⟩ := westward_phasor (vectorClient.blockTemps westwardFrame.byte ⟨0, 0⟩ 0)
  have west : signed (word16 westwardFrame.byte 16) = -1 := by rw [re]; rfl
  have minus : signed (word16 westwardFrame.byte 24) = -1 := by rw [value]; rfl
  refine ⟨_, _, _, hc, run, stored, phasor, magnitude, angle, analog, westward_analog, west, minus,
    ?_⟩
  intro h
  obtain ⟨an, an', han, stored', arrives⟩ := h.analog rfl 0 (by decide)
  obtain rfl := Option.some.inj (analog.symm.trans stored')
  obtain rfl : vectorAnalog = an := Option.some.inj han
  have sent : (65535 : ℝ) = 1 * (signed (word16 westwardFrame.byte 24) : ℤ) :=
    westward_analog.symm.trans arrives
  rw [minus] at sent
  norm_num at sent

theorem northeastward_vector_arrives :
    ∃ c', (vectorClient.storeData ⟨0, 0⟩ northeastwardFrame.byte).configuration[0]? = some c' ∧
      IntegerChannelsArrive vectorClient northeastwardFrame.byte vectorClient.expectedSize 0
        vectorRecord c' := by
  have run : parseDataFrame ⟨0, 0⟩ vectorClient northeastwardFrame vectorClient.expectedSize =
      some (0, vectorClient.storeData ⟨0, 0⟩ northeastwardFrame.byte) :=
    vectorClient_reads (by decide +kernel)
  obtain ⟨c', stored, arrives⟩ := integer_channels_arrive_iff (c := vectorRecord) run
    (i := 0) (by decide) rfl
  refine ⟨c', stored, arrives.2 ?_⟩
  have words : (word16 northeastwardFrame.byte 16).toNat < 2 ^ 15 ∧
      (word16 northeastwardFrame.byte 18).toNat < 2 ^ 15 ∧
      (word16 northeastwardFrame.byte 24).toNat < 2 ^ 15 := by
    decide +kernel
  constructor
  case polar =>
    rintro - ⟨⟩
  case rectangular =>
    rintro - - j hj
    obtain rfl : j = 0 := Nat.lt_one_iff.1 hj
    exact ⟨words.1, words.2.1⟩
  case analog =>
    rintro - j hj an -
    obtain rfl : j = 0 := Nat.lt_one_iff.1 hj
    exact .inr words.2.2

end
end Khorjin
