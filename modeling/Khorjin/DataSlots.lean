import Khorjin.DataParser

set_option autoImplicit false

/-!
# The slots of a data frame

Where the data parser takes each field from, and what it stores. Each function of
the parser is specified by one equivalence: the bytes and array elements a
defined run needs, and the record it leaves.
-/
namespace Khorjin
open ByteMemory LoopRules

/-- What a PMU record says about the block of that PMU in a data frame. -/
structure Layout where
  phasorIsFloatingPoint : Bool
  phasorIsPolar : Bool
  freqIsFloatingPoint : Bool
  analogIsFloatingPoint : Bool
  phasors : ℕ
  analogs : ℕ
  digitals : ℕ
deriving DecidableEq

namespace Layout

def phasorWidth (l : Layout) : ℕ := if l.phasorIsFloatingPoint then 8 else 4
def freqWidth (l : Layout) : ℕ := if l.freqIsFloatingPoint then 8 else 4
def analogWidth (l : Layout) : ℕ := if l.analogIsFloatingPoint then 4 else 2

/-! Offsets from the STAT word. -/

def freqOffset (l : Layout) : ℕ := 2 + l.phasorWidth * l.phasors
def analogOffset (l : Layout) : ℕ := l.freqOffset + l.freqWidth
def digitalOffset (l : Layout) : ℕ := l.analogOffset + l.analogWidth * l.analogs
def blockSize (l : Layout) : ℕ := l.digitalOffset + 2 * l.digitals

theorem offsets_le (l : Layout) : 2 ≤ l.freqOffset ∧ l.freqOffset ≤ l.analogOffset ∧
    l.analogOffset ≤ l.digitalOffset ∧ l.digitalOffset ≤ l.blockSize := by
  unfold blockSize digitalOffset analogOffset freqOffset
  omega

end Layout

namespace Configuration
variable {F : Type}

def layout (c : Configuration F) : Layout where
  phasorIsFloatingPoint := c.phasorIsFloatingPoint
  phasorIsPolar := c.phasorIsPolar
  freqIsFloatingPoint := c.freqIsFloatingPoint
  analogIsFloatingPoint := c.analogIsFloatingPoint
  phasors := c.numberOfPhasors.toNat
  analogs := c.numberOfAnalogs.toNat
  digitals := c.numberOfDigitals.toNat

@[simp] theorem layout_storeSTAT (c : Configuration F) (w : UInt16) :
    (c.storeSTAT w).layout = c.layout := rfl

@[simp] theorem layout_setPhasor (c : Configuration F) (l : List (Phasor F)) :
    (c.setPhasor l).layout = c.layout := rfl

@[simp] theorem layout_setFrequency (c : Configuration F) (x : F) :
    (c.setFrequency x).layout = c.layout := rfl

@[simp] theorem layout_setRocof (c : Configuration F) (x : F) :
    (c.setRocof x).layout = c.layout := rfl

@[simp] theorem layout_setAnalog (c : Configuration F) (l : List (Analog F)) :
    (c.setAnalog l).layout = c.layout := rfl

@[simp] theorem layout_setDigital (c : Configuration F) (l : List Digital) :
    (c.setDigital l).layout = c.layout := rfl

def CountsInside (c : Configuration F) : Prop :=
  c.layout.phasors ≤ c.phasor.length ∧ c.layout.analogs ≤ c.analog.length ∧
    c.layout.digitals ≤ c.digital.length

def ArraysMatch (c : Configuration F) : Prop :=
  c.phasor.length = c.numberOfPhasors.toNat ∧ c.analog.length = c.numberOfAnalogs.toNat ∧
    c.digital.length = c.numberOfDigitals.toNat

instance (c : Configuration F) : Decidable c.ArraysMatch :=
  inferInstanceAs (Decidable (_ ∧ _ ∧ _))

theorem ArraysMatch.countsInside {c : Configuration F} (h : c.ArraysMatch) : c.CountsInside :=
  ⟨h.1.ge, h.2.1.ge, h.2.2.ge⟩

end Configuration

variable {F D : Type} [Platform F D]

def phasorAt (l : Layout) (m : ℕ → UInt8) (t : Temps F) (p : ℕ) (ph : Phasor F) : Phasor F :=
  if l.phasorIsFloatingPoint then
    if l.phasorIsPolar then { ph with magnitude := float32 m p, angle := float32 m (p + 4) }
    else { ph with
      magnitude := FloatArith.narrow (magnitudeOf (float32 m p) (float32 m (p + 4) : F))
      angle := angleOf (float32 m p) (float32 m (p + 4)) }
  else if l.phasorIsPolar then { ph with
    magnitude := FloatArith.mul t.tempFloat_1 ph.conversionFactor
    angle := FloatArith.mul t.tempFloat_2 ph.conversionFactor }
  else { ph with
    magnitude := FloatArith.narrow (FloatArith.mulD F
      (magnitudeOf (floatOfWord (word16 m p)) (floatOfWord (word16 m (p + 2)) : F))
      (FloatArith.widen ph.conversionFactor))
    angle := angleOf (floatOfWord (word16 m p)) (floatOfWord (word16 m (p + 2))) }

/-- The local floats after `n` phasors. -/
def phasorTemps (l : Layout) (m : ℕ → UInt8) (t : Temps F) (p : ℕ) : ℕ → Temps F
  | 0 => t
  | j + 1 =>
    if l.phasorIsFloatingPoint then ⟨float32 m (p + 8 * j), float32 m (p + 8 * j + 4)⟩ else t

def frequencyAt (l : Layout) (m : ℕ → UInt8) (p : ℕ) : F :=
  if l.freqIsFloatingPoint then float32 m p
  else FloatArith.narrow (FloatArith.mulD F
    (FloatArith.widen (floatOfWord (F := F) (word16 m (p + 2)))) (FloatArith.const F (1 / 100)))

/-- The rate of change, of which an integer format keeps the `old` value. -/
def rocofAt (l : Layout) (m : ℕ → UInt8) (old : F) (p : ℕ) : F :=
  if l.freqIsFloatingPoint then FloatArith.narrow (FloatArith.mulD F
    (FloatArith.widen (float32 (F := F) m (p + 4))) (FloatArith.const F (1 / 100)))
  else old

def freqTemps (l : Layout) (m : ℕ → UInt8) (t : Temps F) (p : ℕ) : Temps F :=
  if l.freqIsFloatingPoint then { t with tempFloat_1 := float32 m (p + 4) } else t

def analogAt (l : Layout) (m : ℕ → UInt8) (p : ℕ) (an : Analog F) : Analog F :=
  if l.analogIsFloatingPoint then { an with value := float32 m p }
  else { an with value := FloatArith.mul (floatOfWord (word16 m p)) an.conversionFactor }

/-- What a configuration has stored in a channel stays when a value arrives. -/
theorem phasorAt_keeps (l : Layout) (m : ℕ → UInt8) (t : Temps F) (p : ℕ) (ph : Phasor F) :
    (phasorAt l m t p ph).channelName = ph.channelName ∧
      (phasorAt l m t p ph).phasorIsVorI = ph.phasorIsVorI ∧
      (phasorAt l m t p ph).conversionFactor = ph.conversionFactor := by
  unfold phasorAt
  split_ifs <;> exact ⟨rfl, rfl, rfl⟩

theorem analogAt_keeps (l : Layout) (m : ℕ → UInt8) (p : ℕ) (an : Analog F) :
    (analogAt l m p an).channelName = an.channelName ∧
      (analogAt l m p an).analogType = an.analogType ∧
      (analogAt l m p an).conversionFactor = an.conversionFactor := by
  unfold analogAt
  split_ifs <;> exact ⟨rfl, rfl, rfl⟩

def analogTemps (l : Layout) (m : ℕ → UInt8) (t : Temps F) (p : ℕ) : ℕ → Temps F
  | 0 => t
  | j + 1 => if l.analogIsFloatingPoint then { t with tempFloat_1 := float32 m (p + 4 * j) } else t

theorem phasorTemps_integer {l : Layout} (h : ¬ l.phasorIsFloatingPoint)
    (m : ℕ → UInt8) (t : Temps F) (p j : ℕ) : phasorTemps l m t p j = t := by
  cases j with
  | zero => rfl
  | succ j => simp only [phasorTemps, h, if_false, Bool.false_eq_true]

theorem analogTemps_integer {l : Layout} (h : ¬ l.analogIsFloatingPoint)
    (m : ℕ → UInt8) (t : Temps F) (p j : ℕ) : analogTemps l m t p j = t := by
  cases j with
  | zero => rfl
  | succ j => simp only [analogTemps, h, if_false, Bool.false_eq_true]

theorem analogTemps_tempFloat_2 (l : Layout) (m : ℕ → UInt8) (t : Temps F) (p j : ℕ) :
    (analogTemps l m t p j).tempFloat_2 = t.tempFloat_2 := by
  cases j with
  | zero => rfl
  | succ j =>
    unfold analogTemps
    split_ifs <;> rfl

/-- The loop over the phasors of `c` after `j` passes. -/
def phasorsAfter (c : Configuration F) (m : ℕ → UInt8) (t : Temps F) (p j : ℕ) : PmuState F where
  pmu := c.setPhasor
    (sweep (fun k => phasorAt c.layout m t (p + c.layout.phasorWidth * k)) j c.phasor)
  bufPos := p + c.layout.phasorWidth * j
  temps := phasorTemps c.layout m t p j

theorem phasor_step (b : Memory) (c : Configuration F) (t : Temps F) (p j : ℕ)
    (u : PmuState F) : parsePhasor b j (phasorsAfter c b.byte t p j) = some u ↔
      (j < c.phasor.length ∧
        b.Defined (p + c.layout.phasorWidth * j) (p + c.layout.phasorWidth * (j + 1))) ∧
        phasorsAfter c b.byte t p (j + 1) = u := by
  have same : (phasorsAfter c b.byte t p j).pmu.phasor[j]? = c.phasor[j]? :=
    sweep_get_ge _ _ (Nat.le_refl j)
  cases hph : c.phasor[j]? with
  | none =>
    have hlen := List.getElem?_eq_none_iff.1 hph
    simp [parsePhasor, same, Nat.not_lt.2 hlen]
  | some ph =>
    have hlen := (List.getElem?_eq_some_iff.1 hph).choose
    have next := sweep_set
      (fun k => phasorAt c.layout b.byte t (p + c.layout.phasorWidth * k)) j c.phasor ph hph
    have e8 : p + 8 * (j + 1) = p + 8 * j + 4 + 4 := by omega
    have e4 : p + 4 * (j + 1) = p + 4 * j + 2 + 2 := by omega
    have float : c.layout.phasorIsFloatingPoint = c.phasorIsFloatingPoint := rfl
    have polar : c.layout.phasorIsPolar = c.phasorIsPolar := rfl
    simp only [parsePhasor, same, hph, Option.bind_eq_bind, Option.bind_some]
    simp only [phasorsAfter, ← next, hlen, true_and, Configuration.setPhasor_phasor,
      Configuration.setPhasor_phasorIsFloatingPoint, Configuration.setPhasor_phasorIsPolar,
      Configuration.setPhasor_setPhasor, ← float, ← polar]
    by_cases hf : c.layout.phasorIsFloatingPoint
    · by_cases hp : c.layout.phasorIsPolar <;>
        simp only [Layout.phasorWidth, hf, hp, if_true, if_false, Bool.false_eq_true, e8,
          decodeFloatingPointValue_bind, Memory.defined_add b _ 4 4, and_assoc, Option.some.injEq,
          phasorAt, phasorTemps]
    · by_cases hp : c.layout.phasorIsPolar <;>
        simp only [Layout.phasorWidth, hf, hp, if_true, if_false, Bool.false_eq_true, e4,
          twoByteToUint16_bind, Memory.defined_add b _ 2 2, and_assoc, Option.some.injEq, phasorAt,
          phasorTemps_integer hf]

theorem phasors_iff (b : Memory) (c : Configuration F) (t : Temps F) (p n : ℕ) (u : PmuState F) :
    forLoop (parsePhasor b) n ⟨c, p, t⟩ = some u ↔
      (n ≤ c.phasor.length ∧ b.Defined p (p + c.layout.phasorWidth * n)) ∧
        phasorsAfter c b.byte t p n = u := by
  have start : phasorsAfter c b.byte t p 0 = ⟨c, p, t⟩ := by
    simp only [phasorsAfter, sweep_zero, Configuration.setPhasor_self, phasorTemps, Nat.mul_zero,
      Nat.add_zero]
  have loop := forLoop_iff (phasorsAfter c b.byte t p) _ n (fun j _ => phasor_step b c t p j) u
  rw [start] at loop
  rw [loop, forall_lt_and_iff, Memory.defined_blocks, forall_lt_iff_le]

def analogsAfter (c : Configuration F) (m : ℕ → UInt8) (t : Temps F) (p j : ℕ) : PmuState F where
  pmu := c.setAnalog
    (sweep (fun k => analogAt c.layout m (p + c.layout.analogWidth * k)) j c.analog)
  bufPos := p + c.layout.analogWidth * j
  temps := analogTemps c.layout m t p j

theorem analog_step (b : Memory) (c : Configuration F) (t : Temps F) (p j : ℕ)
    (u : PmuState F) : parseAnalog b j (analogsAfter c b.byte t p j) = some u ↔
      (j < c.analog.length ∧
        b.Defined (p + c.layout.analogWidth * j) (p + c.layout.analogWidth * (j + 1))) ∧
        analogsAfter c b.byte t p (j + 1) = u := by
  have same : (analogsAfter c b.byte t p j).pmu.analog[j]? = c.analog[j]? :=
    sweep_get_ge _ _ (Nat.le_refl j)
  cases han : c.analog[j]? with
  | none =>
    have hlen := List.getElem?_eq_none_iff.1 han
    simp [parseAnalog, same, Nat.not_lt.2 hlen]
  | some an =>
    have hlen := (List.getElem?_eq_some_iff.1 han).choose
    have next := sweep_set (fun k => analogAt c.layout b.byte (p + c.layout.analogWidth * k)) j
      c.analog an han
    have e4 : p + 4 * (j + 1) = p + 4 * j + 4 := by omega
    have e2 : p + 2 * (j + 1) = p + 2 * j + 2 := by omega
    have float : c.layout.analogIsFloatingPoint = c.analogIsFloatingPoint := rfl
    simp only [parseAnalog, same, han, Option.bind_eq_bind, Option.bind_some]
    simp only [analogsAfter, ← next, hlen, true_and, Configuration.setAnalog_analog,
      Configuration.setAnalog_analogIsFloatingPoint, Configuration.setAnalog_setAnalog,
      analogTemps_tempFloat_2, ← float]
    by_cases hf : c.layout.analogIsFloatingPoint
    · simp only [Layout.analogWidth, hf, if_true, e4, decodeFloatingPointValue_bind,
        Option.some.injEq, analogAt, analogTemps]
    · simp only [Layout.analogWidth, hf, if_false, Bool.false_eq_true, e2,
        twoByteToUint16_bind, Option.some.injEq, analogAt, analogTemps_integer hf]

theorem analogs_iff (b : Memory) (c : Configuration F) (t : Temps F) (p n : ℕ) (u : PmuState F) :
    forLoop (parseAnalog b) n ⟨c, p, t⟩ = some u ↔
      (n ≤ c.analog.length ∧ b.Defined p (p + c.layout.analogWidth * n)) ∧
        analogsAfter c b.byte t p n = u := by
  have start : analogsAfter c b.byte t p 0 = ⟨c, p, t⟩ := by
    simp only [analogsAfter, sweep_zero, Configuration.setAnalog_self, analogTemps, Nat.mul_zero,
      Nat.add_zero]
  have loop := forLoop_iff (analogsAfter c b.byte t p) _ n (fun j _ => analog_step b c t p j) u
  rw [start] at loop
  rw [loop, forall_lt_and_iff, Memory.defined_blocks, forall_lt_iff_le]

def digitalsAfter (c : Configuration F) (m : ℕ → UInt8) (t : Temps F) (p j : ℕ) : PmuState F where
  pmu := c.setDigital (sweep (fun k dg => dg.storeWord (word16 m (p + 2 * k))) j c.digital)
  bufPos := p + 2 * j
  temps := t

theorem digital_step (b : Memory) (c : Configuration F) (t : Temps F) (p j : ℕ)
    (u : PmuState F) : parseDigital b j (digitalsAfter c b.byte t p j) = some u ↔
      (j < c.digital.length ∧ b.Defined (p + 2 * j) (p + 2 * (j + 1))) ∧
        digitalsAfter c b.byte t p (j + 1) = u := by
  have same : (digitalsAfter c b.byte t p j).pmu.digital[j]? = c.digital[j]? :=
    sweep_get_ge _ _ (Nat.le_refl j)
  cases hdg : c.digital[j]? with
  | none =>
    have hlen := List.getElem?_eq_none_iff.1 hdg
    simp [parseDigital, same, Nat.not_lt.2 hlen]
  | some dg =>
    have hlen := (List.getElem?_eq_some_iff.1 hdg).choose
    have next := sweep_set (fun k (dg : Digital) => dg.storeWord (word16 b.byte (p + 2 * k))) j
      c.digital dg hdg
    have e2 : p + 2 * (j + 1) = p + 2 * j + 2 := by omega
    simp only [parseDigital, same, hdg, Option.bind_eq_bind, Option.bind_some]
    simp only [digitalsAfter, ← next, hlen, true_and, Configuration.setDigital_digital,
      Configuration.setDigital_setDigital, e2, twoByteToUint16_bind, Option.some.injEq]

theorem digitals_iff (b : Memory) (c : Configuration F) (t : Temps F) (p n : ℕ) (u : PmuState F) :
    forLoop (parseDigital b) n ⟨c, p, t⟩ = some u ↔
      (n ≤ c.digital.length ∧ b.Defined p (p + 2 * n)) ∧ digitalsAfter c b.byte t p n = u := by
  have start : digitalsAfter c b.byte t p 0 = ⟨c, p, t⟩ := by
    simp only [digitalsAfter, sweep_zero, Configuration.setDigital_self, Nat.mul_zero,
      Nat.add_zero]
  have loop := forLoop_iff (digitalsAfter c b.byte t p) _ n (fun j _ => digital_step b c t p j) u
  rw [start] at loop
  rw [loop, forall_lt_and_iff, Memory.defined_blocks, forall_lt_iff_le]

theorem frequency_bind {β : Type} (b : Memory) (c : Configuration F) (t : Temps F) (p : ℕ)
    (k : PmuState F → Option β) (u : β) :
    (parseFrequency b ⟨c, p, t⟩).bind (fun s => (parseRocof b s).bind k) = some u ↔
      b.Defined p (p + c.layout.freqWidth) ∧
        k ⟨(c.setFrequency (frequencyAt c.layout b.byte p)).setRocof
            (rocofAt c.layout b.byte c.rocof p),
          p + c.layout.freqWidth, freqTemps c.layout b.byte t p⟩ = some u := by
  have float : c.freqIsFloatingPoint = c.layout.freqIsFloatingPoint := rfl
  by_cases hf : c.layout.freqIsFloatingPoint
  · simp only [parseFrequency, parseRocof, float, hf, if_true, Option.bind_eq_bind,
      Option.bind_assoc, Option.bind_some, Configuration.setFrequency_freqIsFloatingPoint,
      decodeFloatingPointValue_bind, Layout.freqWidth, frequencyAt, rocofAt, freqTemps,
      Memory.defined_add b _ 4 4, and_assoc, show p + 8 = p + 4 + 4 by omega]
  · simp only [parseFrequency, parseRocof, float, hf, if_false, Bool.false_eq_true,
      Option.bind_eq_bind, Option.bind_assoc, Option.bind_some,
      Configuration.setFrequency_freqIsFloatingPoint, twoByteToUint16_bind, Layout.freqWidth,
      frequencyAt, rocofAt, freqTemps, Memory.defined_add b _ 2 2, and_assoc,
      show p + 4 = p + 2 + 2 by omega, Configuration.setFrequency_setFrequency]
    rfl

/-- The record of a PMU after its block at `p` has been parsed. -/
def blockAt (c : Configuration F) (m : ℕ → UInt8) (t : Temps F) (p : ℕ) : Configuration F :=
  let l := c.layout
  let phasor := sweep (fun k => phasorAt l m t (p + 2 + l.phasorWidth * k)) l.phasors c.phasor
  let analog := sweep (fun k => analogAt l m (p + l.analogOffset + l.analogWidth * k)) l.analogs
    c.analog
  let digital := sweep (fun k dg => dg.storeWord (word16 m (p + l.digitalOffset + 2 * k)))
    l.digitals c.digital
  (((((c.storeSTAT (word16 m p)).setPhasor phasor).setFrequency
    (frequencyAt l m (p + l.freqOffset))).setRocof
      (rocofAt l m c.rocof (p + l.freqOffset))).setAnalog analog).setDigital digital

section
variable (c : Configuration F) (m : ℕ → UInt8) (t : Temps F) (p : ℕ)

theorem blockAt_phasors : (blockAt c m t p).phasor =
    sweep (fun k => phasorAt c.layout m t (p + 2 + c.layout.phasorWidth * k)) c.layout.phasors
      c.phasor := rfl

theorem blockAt_analogs : (blockAt c m t p).analog =
    sweep (fun k => analogAt c.layout m (p + c.layout.analogOffset + c.layout.analogWidth * k))
      c.layout.analogs c.analog := rfl

theorem blockAt_digitals : (blockAt c m t p).digital =
    sweep (fun k dg => dg.storeWord (word16 m (p + c.layout.digitalOffset + 2 * k)))
      c.layout.digitals c.digital := rfl

theorem blockAt_counts : (blockAt c m t p).numberOfPhasors = c.numberOfPhasors ∧
    (blockAt c m t p).numberOfAnalogs = c.numberOfAnalogs ∧
    (blockAt c m t p).numberOfDigitals = c.numberOfDigitals := by
  simp [blockAt]

end

def blockTemps (l : Layout) (m : ℕ → UInt8) (t : Temps F) (p : ℕ) : Temps F :=
  analogTemps l m (freqTemps l m (phasorTemps l m t (p + 2) l.phasors) (p + l.freqOffset))
    (p + l.analogOffset) l.analogs

theorem block_range (b : Memory) (l : Layout) (p : ℕ) :
    b.Defined p (p + 2) ∧ b.Defined (p + 2) (p + l.freqOffset) ∧
      b.Defined (p + l.freqOffset) (p + l.analogOffset) ∧
        b.Defined (p + l.analogOffset) (p + l.digitalOffset) ∧
          b.Defined (p + l.digitalOffset) (p + l.blockSize) ↔ b.Defined p (p + l.blockSize) := by
  obtain ⟨h1, h2, h3, h4⟩ := l.offsets_le
  rw [Memory.defined_append (p := p + l.analogOffset) (by omega) (by omega),
    Memory.defined_append (p := p + l.freqOffset) (by omega) (by omega),
    Memory.defined_append (p := p + 2) (by omega) (by omega),
    Memory.defined_append (by omega) (by omega)]

theorem tail_iff (b : Memory) (d : Configuration F) (t : Temps F) (p : ℕ) (u : PmuState F) :
    (forLoop (parseAnalog b) d.numberOfAnalogs.toNat ⟨d, p, t⟩).bind
        (fun s => forLoop (parseDigital b) s.pmu.numberOfDigitals.toNat s) = some u ↔
      (d.layout.analogs ≤ d.analog.length ∧
        b.Defined p (p + d.layout.analogWidth * d.layout.analogs)) ∧
      (d.layout.digitals ≤ d.digital.length ∧
        b.Defined (p + d.layout.analogWidth * d.layout.analogs)
          (p + d.layout.analogWidth * d.layout.analogs + 2 * d.layout.digitals)) ∧
      (⟨(d.setAnalog (sweep (fun k => analogAt d.layout b.byte (p + d.layout.analogWidth * k))
          d.layout.analogs d.analog)).setDigital (sweep (fun k dg => dg.storeWord (word16 b.byte
            (p + d.layout.analogWidth * d.layout.analogs + 2 * k))) d.layout.digitals d.digital),
        p + d.layout.analogWidth * d.layout.analogs + 2 * d.layout.digitals,
        analogTemps d.layout b.byte t p d.layout.analogs⟩ : PmuState F) = u := by
  simp only [bind_iff (analogs_iff b _ _ _ _), analogsAfter, digitals_iff, digitalsAfter]
  exact Iff.rfl

theorem parsePmuBlock_iff (b : Memory) (c : Configuration F) (t : Temps F) (p : ℕ)
    (u : PmuState F) : parsePmuBlock b ⟨c, p, t⟩ = some u ↔
      (c.CountsInside ∧ b.Defined p (p + c.layout.blockSize)) ∧
        ⟨blockAt c b.byte t p, p + c.layout.blockSize, blockTemps c.layout b.byte t p⟩ = u := by
  have e1 : p + 2 + c.layout.phasorWidth * c.layout.phasors = p + c.layout.freqOffset := by
    unfold Layout.freqOffset
    omega
  have e2 : p + c.layout.freqOffset + c.layout.freqWidth = p + c.layout.analogOffset := by
    unfold Layout.analogOffset
    omega
  have e3 : p + c.layout.analogOffset + c.layout.analogWidth * c.layout.analogs =
      p + c.layout.digitalOffset := by
    unfold Layout.digitalOffset
    omega
  have e4 : p + c.layout.digitalOffset + 2 * c.layout.digitals = p + c.layout.blockSize := by
    unfold Layout.blockSize
    omega
  have phasors : c.numberOfPhasors.toNat = c.layout.phasors := rfl
  rw [← block_range]
  simp only [parsePmuBlock, parseSTATWord, Option.bind_eq_bind, Option.bind_assoc,
    Option.bind_some, twoByteToUint16_bind, bind_iff (phasors_iff b _ _ _ _), phasorsAfter,
    frequency_bind, tail_iff, Configuration.layout_storeSTAT, Configuration.layout_setPhasor,
    Configuration.layout_setFrequency, Configuration.layout_setRocof,
    Configuration.storeSTAT_numberOfPhasors, Configuration.storeSTAT_phasor,
    Configuration.storeSTAT_rocof, Configuration.storeSTAT_analog, Configuration.storeSTAT_digital,
    Configuration.setPhasor_rocof, Configuration.setPhasor_analog, Configuration.setPhasor_digital,
    Configuration.setFrequency_analog, Configuration.setFrequency_digital,
    Configuration.setRocof_analog, Configuration.setRocof_digital, Configuration.CountsInside,
    phasors, e1, e2, e3, e4, blockAt, blockTemps]
  constructor
  · rintro ⟨h0, ⟨hp, h1⟩, h2, ⟨ha, h3⟩, ⟨hd, h4⟩, rfl⟩
    exact ⟨⟨⟨hp, ha, hd⟩, h0, h1, h2, h3, h4⟩, rfl⟩
  · rintro ⟨⟨⟨hp, ha, hd⟩, h0, h1, h2, h3, h4⟩, rfl⟩
    exact ⟨h0, ⟨hp, h1⟩, h2, ⟨ha, h3⟩, ⟨hd, h4⟩, rfl⟩

/-! The loop over the PMUs. -/

def blockOffset (ls : List Layout) (i : ℕ) : ℕ := ((ls.take i).map Layout.blockSize).sum

/-- The local floats in front of block `i`, the blocks starting at `p`. -/
def tempsBefore (ls : List Layout) (m : ℕ → UInt8) (t : Temps F) (p : ℕ) : ℕ → Temps F
  | 0 => t
  | i + 1 =>
    match ls[i]? with
    | some l => blockTemps l m (tempsBefore ls m t p i) (p + blockOffset ls i)
    | none => tempsBefore ls m t p i

theorem blockOffset_succ {ls : List Layout} {i : ℕ} {l : Layout} (h : ls[i]? = some l) :
    blockOffset ls (i + 1) = blockOffset ls i + l.blockSize := by
  rw [blockOffset, blockOffset, List.take_add_one, h, List.map_append, List.sum_append]
  rfl

theorem blockOffset_mono (ls : List Layout) {i j : ℕ} (h : i ≤ j) :
    blockOffset ls i ≤ blockOffset ls j := by
  obtain ⟨k, rfl⟩ := Nat.exists_eq_add_of_le h
  simp [blockOffset, List.take_add]

def pmusAfter (cs : List (Configuration F)) (m : ℕ → UInt8) (t : Temps F) (p i : ℕ) :
    DataState F where
  configuration := sweep (fun k c => blockAt c m
    (tempsBefore (cs.map Configuration.layout) m t p k)
    (p + blockOffset (cs.map Configuration.layout) k)) i cs
  bufPos := p + blockOffset (cs.map Configuration.layout) i
  temps := tempsBefore (cs.map Configuration.layout) m t p i

theorem pmu_step (b : Memory) (cs : List (Configuration F)) (t : Temps F) (p i : ℕ)
    (u : DataState F) : parsePmu b i (pmusAfter cs b.byte t p i) = some u ↔
      ((∃ c, cs[i]? = some c ∧ c.CountsInside) ∧
        b.Defined (p + blockOffset (cs.map Configuration.layout) i)
          (p + blockOffset (cs.map Configuration.layout) (i + 1))) ∧
        pmusAfter cs b.byte t p (i + 1) = u := by
  have same : (pmusAfter cs b.byte t p i).configuration[i]? = cs[i]? :=
    sweep_get_ge _ _ (le_refl i)
  cases hc : cs[i]? with
  | none => simp [parsePmu, same, hc]
  | some c =>
    have hl : (cs.map Configuration.layout)[i]? = some c.layout := by simp [hc]
    have next := sweep_set (fun k c => blockAt c b.byte
      (tempsBefore (cs.map Configuration.layout) b.byte t p k)
      (p + blockOffset (cs.map Configuration.layout) k)) i cs c hc
    simp only [parsePmu, same, hc, Option.bind_eq_bind, Option.bind_some,
      bind_iff (parsePmuBlock_iff b _ _ _)]
    simp only [pmusAfter, ← next, blockOffset_succ hl, tempsBefore, hl, Option.some.injEq,
      exists_eq_left', Nat.add_assoc]

theorem pmus_iff (b : Memory) (cs : List (Configuration F)) (t : Temps F) (p n : ℕ)
    (u : DataState F) : forLoop (parsePmu b) n ⟨cs, p, t⟩ = some u ↔
      ((∀ i < n, ∃ c, cs[i]? = some c ∧ c.CountsInside) ∧
        b.Defined p (p + blockOffset (cs.map Configuration.layout) n)) ∧
        pmusAfter cs b.byte t p n = u := by
  have start : pmusAfter cs b.byte t p 0 = ⟨cs, p, t⟩ := by
    simp only [pmusAfter, sweep_zero, blockOffset, tempsBefore, List.take_zero, List.map_nil,
      List.sum_nil, Nat.add_zero]
  have mono : ∀ i, p + blockOffset (cs.map Configuration.layout) i ≤
      p + blockOffset (cs.map Configuration.layout) (i + 1) := by
    intro i
    have := blockOffset_mono (cs.map Configuration.layout) (Nat.le_add_right i 1)
    omega
  have chain := Memory.defined_chain b mono n
  have loop := forLoop_iff (pmusAfter cs b.byte t p) _ n (fun i _ => pmu_step b cs t p i) u
  rw [start] at loop
  rw [loop, forall_lt_and_iff, chain]
  simp only [blockOffset, List.take_zero, List.map_nil, List.sum_nil, Nat.add_zero]

/-! The whole parser. -/

namespace Client

/-- Every array index that the counts admit was allocated. -/
def ArraysInside (self : Client F) : Prop :=
  ∀ i < self.numPmu.toNat, ∃ c, self.configuration[i]? = some c ∧ c.CountsInside

/-- The array of PMU records and every channel array match their counts. -/
def ArraysMatch (self : Client F) : Prop :=
  self.configuration.length = self.numPmu.toNat ∧ ∀ c ∈ self.configuration, c.ArraysMatch

instance (self : Client F) : Decidable self.ArraysMatch := inferInstanceAs (Decidable (_ ∧ _))

theorem ArraysMatch.get {self : Client F} (h : self.ArraysMatch) {i : ℕ}
    (hi : i < self.numPmu.toNat) : ∃ c, self.configuration[i]? = some c ∧ c.ArraysMatch := by
  have hlt : i < self.configuration.length := by
    rw [h.1]
    exact hi
  exact ⟨self.configuration[i], List.getElem?_eq_getElem hlt, h.2 _ (List.getElem_mem hlt)⟩

theorem ArraysMatch.arraysInside {self : Client F} (h : self.ArraysMatch) : self.ArraysInside := by
  intro i hi
  obtain ⟨c, hc, exactly⟩ := h.get hi
  exact ⟨c, hc, exactly.countsInside⟩

def layouts (self : Client F) : List Layout := self.configuration.map Configuration.layout

def blockBase (self : Client F) (i : ℕ) : ℕ := 14 + blockOffset self.layouts i

def blockTemps (self : Client F) (m : ℕ → UInt8) (t : Temps F) (i : ℕ) : Temps F :=
  tempsBefore self.layouts m t 14 i

/-- Where the cursor stands behind the last block. -/
def dataEnd (self : Client F) : ℕ := self.blockBase self.numPmu.toNat

def storeData (self : Client F) (t : Temps F) (m : ℕ → UInt8) : Client F :=
  { self with
    dataTimeStamp := timeAt self.dataTimeStamp self.timeBase m 6
    configuration := sweep (fun i c => blockAt c m (self.blockTemps m t i) (self.blockBase i))
      self.numPmu.toNat self.configuration }

end Client

theorem blockBase_succ {self : Client F} {i : ℕ} {c : Configuration F}
    (h : self.configuration[i]? = some c) :
    self.blockBase (i + 1) = self.blockBase i + c.layout.blockSize := by
  have hl : self.layouts[i]? = some c.layout := by simp [Client.layouts, h]
  rw [Client.blockBase, Client.blockBase, blockOffset_succ hl, Nat.add_assoc]

theorem storeData_get {self : Client F} {i : ℕ} {c : Configuration F}
    (hi : i < self.numPmu.toNat) (h : self.configuration[i]? = some c) (t : Temps F)
    (m : ℕ → UInt8) : (self.storeData t m).configuration[i]? =
      some (blockAt c m (self.blockTemps m t i) (self.blockBase i)) := by
  rw [Client.storeData, sweep_get_lt _ _ hi, h]
  rfl

theorem dataLoop_iff (b : Memory) (self : Client F) (t : Temps F) (u : DataState F) :
    forLoop (parsePmu b) self.numPmu.toNat ⟨self.configuration, 14, t⟩ = some u ↔
      (self.ArraysInside ∧ b.Defined 14 self.dataEnd) ∧
        ⟨(self.storeData t b.byte).configuration, self.dataEnd,
          self.blockTemps b.byte t self.numPmu.toNat⟩ = u :=
  pmus_iff b self.configuration t 14 self.numPmu.toNat u

theorem parseDataFrame_iff (t : Temps F) (self : Client F) (b : Memory) (n : ℕ) (h2 : 2 ≤ n)
    (h : n < 2 ^ 31) (r : ℤ × Client F) : parseDataFrame t self b n = some r ↔
      ((b.Defined 0 n ∧ FramePasses 0x01 self.idcode b.byte n ∧ self.ArraysInside ∧
          b.Defined 0 self.dataEnd) ∧ (0, self.storeData t b.byte) = r) ∨
        (checkFrame 0x01 self b n = some none ∧ (-1, self) = r) := by
  have range : b.Defined 0 self.dataEnd ↔
      b.Defined 0 6 ∧ b.Defined 6 (6 + 8) ∧ b.Defined 14 self.dataEnd := by
    have : 14 ≤ self.dataEnd := by
      unfold Client.dataEnd Client.blockBase
      omega
    rw [Memory.defined_append (p := 6) (by omega) (by omega),
      Memory.defined_append (by omega) (by omega)]
  unfold parseDataFrame
  refine (afterChecks_iff h2 h (D := self.ArraysInside ∧ b.Defined 6 (6 + 8) ∧
    b.Defined 14 self.dataEnd) (v := (0, self.storeData t b.byte)) (fun _ _ r => ?_) r).trans ?_
  · have time := bind_iff (β := ℤ × Client F)
      (parseTimeStamp_iff self.dataTimeStamp self.timeBase b 6)
    simp only [Option.bind_eq_bind, time, bind_iff (dataLoop_iff b self t), Option.some.injEq]
    constructor
    · rintro ⟨h14, ⟨inside, hloop⟩, rfl⟩
      exact ⟨⟨inside, h14, hloop⟩, rfl⟩
    · rintro ⟨⟨inside, h14, hloop⟩, rfl⟩
      exact ⟨h14, ⟨inside, hloop⟩, rfl⟩
  · rw [range]
    tauto

/-- A frame that passes the checks, and whose blocks lie in mapped memory, is stored. -/
theorem parseDataFrame_of_pass {t : Temps F} {self : Client F} {b : Memory} {n : ℕ} (h2 : 2 ≤ n)
    (pass : FramePasses 0x01 self.idcode b.byte n) (inside : self.ArraysInside)
    (mapped : b.Defined 0 n) (read : b.Defined 0 self.dataEnd) :
    parseDataFrame t self b n = some (0, self.storeData t b.byte) := by
  have lt := pass.size_lt
  exact (parseDataFrame_iff t self b n h2 (by omega) _).2 (.inl ⟨⟨mapped, pass, inside, read⟩, rfl⟩)

/-- The same for a receive buffer that was cleared before `l` was read into it. -/
theorem parseDataFrame_zeroFilled {self : Client F} {l : List UInt8} {n : ℕ} (t : Temps F)
    (exactly : self.ArraysMatch) (fits : self.dataEnd ≤ BUFER_LENGTH) (h2 : 2 ≤ n)
    (hn : n ≤ BUFER_LENGTH)
    (pass : FramePasses 0x01 self.idcode (Memory.zeroFilled BUFER_LENGTH l).byte n) :
    parseDataFrame t self (Memory.zeroFilled BUFER_LENGTH l) n =
      some (0, self.storeData t (Memory.zeroFilled BUFER_LENGTH l).byte) :=
  parseDataFrame_of_pass h2 pass exactly.arraysInside (Memory.zeroFilled_defined l hn)
    (Memory.zeroFilled_defined l fits)

theorem checkFrame_of_accepted {t : Temps F} {self self' : Client F} {b : Memory}
    {bufferSize : ℤ} (run : parseDataFrame t self b bufferSize = some (0, self')) :
    (∃ header, checkFrame 0x01 self b bufferSize = some (some header)) ∧
      ∃ n : ℕ, 2 ≤ n ∧ n < 2 ^ 16 ∧ bufferSize = n := by
  unfold parseDataFrame at run
  exact afterChecks_size (by simp) run

theorem parseDataFrame_accepted {t : Temps F} {self self' : Client F} {b : Memory}
    {bufferSize : ℤ} (run : parseDataFrame t self b bufferSize = some (0, self')) :
    ∃ n : ℕ, bufferSize = n ∧ n < 2 ^ 16 ∧ FramePasses 0x01 self.idcode b.byte n ∧
      self.ArraysInside ∧ b.Defined 0 self.dataEnd ∧ self' = self.storeData t b.byte := by
  obtain ⟨_, n, h2, hn, rfl⟩ := checkFrame_of_accepted run
  rcases (parseDataFrame_iff t self b n h2 (by omega) _).1 run with
    ⟨⟨_, pass, inside, read⟩, hr⟩ | ⟨_, hr⟩
  · cases hr
    exact ⟨n, rfl, hn, pass, inside, read, rfl⟩
  · simp at hr

end Khorjin
