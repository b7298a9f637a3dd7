import Khorjin.DataFields
import Khorjin.OutputArrays
import Khorjin.VectorArithmetic

set_option autoImplicit false

/-!
# Polar and rectangular phasors as floats

One phasor sent in the two floating-point formats, and what is stored and handed out of
it. Arithmetic is read as exact reals, and a float word may stand for any of them.
-/
namespace Khorjin
open ByteMemory LoopRules

/-- The slot of phasor `j` of PMU `i`, a floating-point one, holds `x` and `y`. -/
structure SentAs [Platform ℝ ℝ] (client : Client ℝ) (m : ℕ → UInt8) (i j : ℕ) (polar : Bool)
    (x y : ℝ) : Prop where
  pmu : i < client.numPmu.toNat
  format : ∃ c, client.configuration[i]? = some c ∧ c.phasorIsFloatingPoint = true ∧
    c.phasorIsPolar = polar ∧ j < c.numberOfPhasors.toNat
  first : float32 m (slotBase client.configuration i + 2 + 8 * j) = x
  second : float32 m (slotBase client.configuration i + 2 + 8 * j + 4) = y

def Reports (client : Client ℝ) (buffers : OutputBuffers ℝ) (i j : ℕ) (x y : ℝ) : Prop :=
  ∃ c ph out, client.configuration[i]? = some c ∧ c.phasor[j]? = some ph ∧
    ph.magnitude = x ∧ ph.angle = y ∧ outputDataStream client buffers = some out ∧
    out.phasorsMagBuffer (phasorIndex client.configuration i + j) = x ∧
    out.phasorsAngBuffer (phasorIndex client.configuration i + j) = y

theorem Reports.unique {client : Client ℝ} {buffers : OutputBuffers ℝ} {i j : ℕ} {x y u v : ℝ}
    (h : Reports client buffers i j x y) (h' : Reports client buffers i j u v) : x = u ∧ y = v := by
  obtain ⟨c, ph, _, hc, hph, rfl, rfl, _⟩ := h
  obtain ⟨d, ph', _, hd, hph', rfl, rfl, _⟩ := h'
  obtain rfl := Option.some.inj (hc.symm.trans hd)
  obtain rfl := Option.some.inj (hph.symm.trans hph')
  exact ⟨rfl, rfl⟩

section
variable [Platform ℝ ℝ]

theorem phasorAt_floatPolar {l : Layout} (float : l.phasorIsFloatingPoint = true)
    (polar : l.phasorIsPolar = true) (m : ℕ → UInt8) (t : Temps ℝ) (p : ℕ) (ph : Phasor ℝ) :
    (phasorAt l m t p ph).magnitude = float32 m p ∧
      (phasorAt l m t p ph).angle = float32 m (p + 4) := by
  rw [phasorAt, if_pos float, if_pos polar]
  exact ⟨rfl, rfl⟩

theorem phasorAt_floatRectangular [ExactRealArith] {l : Layout}
    (float : l.phasorIsFloatingPoint = true) (rectangular : l.phasorIsPolar = false)
    (m : ℕ → UInt8) (t : Temps ℝ) (p : ℕ) (ph : Phasor ℝ) :
    (phasorAt l m t p ph).magnitude = √((float32 m p) ^ 2 + (float32 m (p + 4)) ^ 2) ∧
      (phasorAt l m t p ph).angle = vectorAngle (float32 m p) (float32 m (p + 4)) := by
  rw [phasorAt, if_pos float, rectangular, if_neg Bool.false_ne_true]
  simp only [ExactArith.narrow, magnitudeOf_exact, angleOf_exact, and_self]

variable {t t' : Temps ℝ} {self self' other other' : Client ℝ} {b b' : Memory}
  {bufferSize bufferSize' : ℤ} {i j i' j' : ℕ} {x y : ℝ}

theorem reports_of_accepted (run : parseDataFrame t self b bufferSize = some (0, self'))
    {polar : Bool} (sent : SentAs self b.byte i j polar x y) (buffers : OutputBuffers ℝ) :
    ∃ (l : Layout) (p : ℕ) (ph : Phasor ℝ) (u : Temps ℝ), l.phasorIsFloatingPoint = true ∧
      l.phasorIsPolar = polar ∧ float32 b.byte p = x ∧ float32 b.byte (p + 4) = y ∧
      Reports self' buffers i j (phasorAt l b.byte u p ph).magnitude
        (phasorAt l b.byte u p ph).angle := by
  obtain ⟨out, handed, phasors⟩ := outputDataStream_phasor run buffers
  obtain ⟨d, hc, float, format, hj⟩ := sent.format
  obtain ⟨⟨counts, _⟩, stored⟩ := accepted_get run sent.pmu hc
  have slot : self.blockBase i + 2 + 8 * j = slotBase self.configuration i + 2 + 8 * j := by
    rw [slotBase_get hc]
  have width : d.layout.phasorWidth = 8 := if_pos float
  have inPhasors : j < d.phasor.length := lt_of_lt_of_le hj counts
  have hph : d.phasor[j]? = some d.phasor[j] := List.getElem?_eq_getElem inPhasors
  have phasor := blockAt_phasor hj hph b.byte (self.blockTemps b.byte t i) (self.blockBase i)
  have count : j < (blockAt d b.byte (self.blockTemps b.byte t i)
      (self.blockBase i)).numberOfPhasors.toNat := by
    rw [(blockAt_counts d _ _ _).1]
    exact hj
  rw [width, slot] at phasor
  have hi : i < self'.numPmu.toNat := by
    rw [accepted_numPmu run]
    exact sent.pmu
  obtain ⟨mag, ang⟩ := phasors i hi _ stored j count _ phasor
  exact ⟨d.layout, slotBase self.configuration i + 2 + 8 * j, d.phasor[j],
    self.blockTemps b.byte t i, float, format, sent.first, sent.second, _, _, out, stored, phasor,
    rfl, rfl, handed, mag, ang⟩

theorem reports_polar (run : parseDataFrame t self b bufferSize = some (0, self'))
    (sent : SentAs self b.byte i j true x y) (buffers : OutputBuffers ℝ) :
    Reports self' buffers i j x y := by
  obtain ⟨l, p, ph, u, float, polar, rfl, rfl, reports⟩ := reports_of_accepted run sent buffers
  obtain ⟨magnitude, angle⟩ := phasorAt_floatPolar float polar b.byte u p ph
  rwa [magnitude, angle] at reports

theorem reports_rectangular [ExactRealArith]
    (run : parseDataFrame t self b bufferSize = some (0, self'))
    (sent : SentAs self b.byte i j false x y) (buffers : OutputBuffers ℝ) :
    Reports self' buffers i j (√(x ^ 2 + y ^ 2)) (vectorAngle x y) := by
  obtain ⟨l, p, ph, u, float, polar, rfl, rfl, reports⟩ := reports_of_accepted run sent buffers
  obtain ⟨magnitude, angle⟩ := phasorAt_floatRectangular float polar b.byte u p ph
  rwa [magnitude, angle] at reports

omit [Platform ℝ ℝ] in
theorem reports_agree_iff {client client' : Client ℝ} {buffers buffers' : OutputBuffers ℝ} {r a : ℝ}
    (hr : 0 < r) (ha : a ∈ Set.Ioc (-Real.pi) Real.pi) (polar : Reports client buffers i j r a)
    (rectangular : Reports client' buffers' i' j'
      (√((r * Real.cos a) ^ 2 + (r * Real.sin a) ^ 2))
      (vectorAngle (r * Real.cos a) (r * Real.sin a))) :
    (∃ magnitude angle, Reports client buffers i j magnitude angle ∧
      Reports client' buffers' i' j' magnitude angle) ↔ a = 0 := by
  obtain ⟨magnitude, angle⟩ := vector_of_polar hr ha
  rw [magnitude, angle] at rectangular
  rw [← degrees_eq_iff]
  constructor
  · rintro ⟨x, y, reports, reports'⟩
    exact (polar.unique reports).2.trans (rectangular.unique reports').2.symm
  · intro same
    rw [← same] at rectangular
    exact ⟨r, a, polar, rectangular⟩

/-- One phasor sent in both formats is reported alike exactly when its angle is zero. -/
theorem formats_agree_iff [ExactRealArith] {r a : ℝ} (hr : 0 < r)
    (ha : a ∈ Set.Ioc (-Real.pi) Real.pi)
    (run : parseDataFrame t self b bufferSize = some (0, self'))
    (polar : SentAs self b.byte i j true r a)
    (run' : parseDataFrame t' other b' bufferSize' = some (0, other'))
    (rectangular : SentAs other b'.byte i' j' false (r * Real.cos a) (r * Real.sin a))
    (buffers buffers' : OutputBuffers ℝ) :
    (∃ magnitude angle, Reports self' buffers i j magnitude angle ∧
      Reports other' buffers' i' j' magnitude angle) ↔ a = 0 :=
  reports_agree_iff hr ha (reports_polar run polar buffers)
    (reports_rectangular run' rectangular buffers')

end

noncomputable section

/-- The word next to a right angle stands for the right angle itself. -/
@[reducible] def rightAngles : Platform ℝ ℝ :=
  ExactReal.platform (fun w =>
    if w = 0x3FC90FDB then Real.pi / 2 else (ExactRational.binary32 w : ℝ))

attribute [local instance] rightAngles

instance : ExactRealArith := by
  have zero : ExactRational.binary32 0 = 0 := by decide +kernel
  have one : ExactRational.binary32 0x3F800000 = 1 := by decide +kernel
  refine ExactReal.exact ?_ ?_
  · rw [if_neg (by decide), zero, Rat.cast_zero]
  · rw [if_neg (by decide), one, Rat.cast_one]

theorem ofBits_rightAngle : (FloatArith.ofBits 0x3FC90FDB : ℝ) = Real.pi / 2 := if_pos rfl

def floatRecord (polar : Bool) : Configuration ℝ :=
  { Configuration.zero with
    phasorIsFloatingPoint := true
    phasorIsPolar := polar
    numberOfPhasors := 1
    phasor := [Phasor.zero] }

def floatClient (polar : Bool) : Client ℝ :=
  { Client.fresh 7 0 [] [] with
    numPmu := 1
    timeBase := 1000
    configuration := [floatRecord polar] }

def floatFrame (slot : List UInt8) : Memory :=
  Memory.zeroFilled BUFER_LENGTH (appendChk
    ([0xAA, 0x01, 0x00, 0x1E, 0x00, 0x07, 0, 0, 0, 1, 0, 0, 0, 0] ++ [0, 0] ++ slot ++
      [0, 0, 0, 0]))

theorem floatClient_reads (polar : Bool) {slot : List UInt8}
    (pass : FramePasses 0x01 7 (floatFrame slot).byte 30) :
    parseDataFrame ⟨0, 0⟩ (floatClient polar) (floatFrame slot) (30 : ℕ) =
      some (0, (floatClient polar).storeData ⟨0, 0⟩ (floatFrame slot).byte) := by
  have exactly : (floatClient polar).ArraysMatch :=
    ⟨rfl, fun c hc => List.mem_singleton.1 hc ▸ ⟨rfl, rfl, rfl⟩⟩
  have fits : (floatClient polar).dataEnd ≤ BUFER_LENGTH := by
    have : (floatClient polar).dataEnd = 28 := rfl
    rw [this]
    decide
  exact parseDataFrame_zeroFilled _ exactly fits (by decide) (by decide) pass

theorem floatClient_sentAs (polar : Bool) {m : ℕ → UInt8} {x y : ℝ} (first : float32 m 16 = x)
    (second : float32 m 20 = y) : SentAs (floatClient polar) m 0 0 polar x y :=
  ⟨Nat.one_pos, ⟨floatRecord polar, rfl, rfl, rfl, Nat.one_pos⟩, first, second⟩

def zeroBuffers : OutputBuffers ℝ :=
  ⟨⟨0, 0, 0, 0, 0, 0, 0⟩, fun _ => 0, fun _ => 0, fun _ => 0, fun _ => 0, fun _ => 0⟩

def polarFrame : Memory := floatFrame [0x3F, 0x80, 0x00, 0x00, 0x3F, 0xC9, 0x0F, 0xDB]
def rectangularFrame : Memory := floatFrame [0x00, 0x00, 0x00, 0x00, 0x3F, 0x80, 0x00, 0x00]

/-- The same phasor comes out at pi/2 and at 90 degrees. -/
theorem right_angle_is_reported_as_two :
    SentAs (floatClient true) polarFrame.byte 0 0 true 1 (Real.pi / 2) ∧
      SentAs (floatClient false) rectangularFrame.byte 0 0 false (1 * Real.cos (Real.pi / 2))
        (1 * Real.sin (Real.pi / 2)) ∧
      parseDataFrame ⟨0, 0⟩ (floatClient true) polarFrame (30 : ℕ) =
        some (0, (floatClient true).storeData ⟨0, 0⟩ polarFrame.byte) ∧
      parseDataFrame ⟨0, 0⟩ (floatClient false) rectangularFrame (30 : ℕ) =
        some (0, (floatClient false).storeData ⟨0, 0⟩ rectangularFrame.byte) ∧
      ¬ ∃ magnitude angle, Reports ((floatClient true).storeData ⟨0, 0⟩ polarFrame.byte)
          zeroBuffers 0 0 magnitude angle ∧
        Reports ((floatClient false).storeData ⟨0, 0⟩ rectangularFrame.byte) zeroBuffers 0 0
          magnitude angle := by
  have words : word32 polarFrame.byte 16 = 0x3F800000 ∧ word32 polarFrame.byte 20 = 0x3FC90FDB ∧
      word32 rectangularFrame.byte 16 = 0 ∧ word32 rectangularFrame.byte 20 = 0x3F800000 := by
    decide +kernel
  obtain ⟨magnitude, angle, re, im⟩ := words
  have polar : SentAs (floatClient true) polarFrame.byte 0 0 true 1 (Real.pi / 2) := by
    apply floatClient_sentAs
    · rw [float32, magnitude, ExactArith.ofBits_one]
    · rw [float32, angle, ofBits_rightAngle]
  have rectangular : SentAs (floatClient false) rectangularFrame.byte 0 0 false
      (1 * Real.cos (Real.pi / 2)) (1 * Real.sin (Real.pi / 2)) := by
    apply floatClient_sentAs
    · rw [float32, re, ExactArith.ofBits_zero, Real.cos_pi_div_two, mul_zero]
    · rw [float32, im, ExactArith.ofBits_one, Real.sin_pi_div_two, mul_one]
  have run : parseDataFrame ⟨0, 0⟩ (floatClient true) polarFrame (30 : ℕ) = some (0, _) :=
    floatClient_reads true (by decide +kernel)
  have run' : parseDataFrame ⟨0, 0⟩ (floatClient false) rectangularFrame (30 : ℕ) = some (0, _) :=
    floatClient_reads false (by decide +kernel)
  refine ⟨polar, rectangular, run, run', fun agree => ?_⟩
  have inside : Real.pi / 2 ∈ Set.Ioc (-Real.pi) Real.pi := by
    constructor <;> linarith [Real.pi_pos]
  have zero := (reports_agree_iff one_pos inside (reports_polar run polar _)
    (reports_rectangular run' rectangular _)).1 agree
  exact Real.pi_div_two_pos.ne' zero

def straightFrame : Memory := floatFrame [0x3F, 0x80, 0x00, 0x00, 0x00, 0x00, 0x00, 0x00]

theorem angle_zero_is_reported_alike :
    ∃ magnitude angle, Reports ((floatClient true).storeData ⟨0, 0⟩ straightFrame.byte)
        zeroBuffers 0 0 magnitude angle ∧
      Reports ((floatClient false).storeData ⟨0, 0⟩ straightFrame.byte) zeroBuffers 0 0 magnitude
        angle := by
  have words : word32 straightFrame.byte 16 = 0x3F800000 ∧ word32 straightFrame.byte 20 = 0 := by
    decide +kernel
  have first : float32 straightFrame.byte 16 = (1 : ℝ) := by
    rw [float32, words.1, ExactArith.ofBits_one]
  have second : float32 straightFrame.byte 20 = (0 : ℝ) := by
    rw [float32, words.2, ExactArith.ofBits_zero]
  have rectangular : SentAs (floatClient false) straightFrame.byte 0 0 false (1 * Real.cos 0)
      (1 * Real.sin 0) := by
    rw [Real.cos_zero, Real.sin_zero, mul_one, mul_zero]
    exact floatClient_sentAs false first second
  have pass : FramePasses 0x01 7 straightFrame.byte 30 := by decide +kernel
  have inside : (0 : ℝ) ∈ Set.Ioc (-Real.pi) Real.pi := by
    constructor <;> linarith [Real.pi_pos]
  exact (formats_agree_iff one_pos inside (floatClient_reads true pass)
    (floatClient_sentAs true first second) (floatClient_reads false pass) rectangular
    zeroBuffers zeroBuffers).2 rfl

end
end Khorjin
