import Khorjin.ConfigurationParser
import Khorjin.DataSlots

set_option autoImplicit false

/-!
# The slots of a configuration frame

Each function of the configuration parser is specified by one equivalence: the
bytes that a defined run reads, and the records it builds. `first` is the layout
that the first record declares, which the source uses for every record.
-/
namespace Khorjin
open ByteMemory LoopRules
variable {F D : Type} [Platform F D]

def nameAt (m : ℕ → UInt8) (p : ℕ) : Name := copyName Name.zero (Memory.bytesAt m 16 p)

def Phasor.storePhunit (floating : Bool) (m : ℕ → UInt8) (p : ℕ) (ph : Phasor F) : Phasor F :=
  { ph.setVorI (m p) with
    conversionFactor := if floating then FloatArith.ofInt 1 else scalePhunit (word24 m (p + 1)) }

def Analog.storeAnunit (m : ℕ → UInt8) (p : ℕ) (an : Analog F) : Analog F :=
  { an with analogType := m p, conversionFactor := FloatArith.ofInt 1 }

def Digital.storeName (m : ℕ → UInt8) (p k : ℕ) (dg : Digital) : Digital :=
  { dg with channel := fun i =>
    if i.val < k then { dg.channel i with
      channelName := copyName (dg.channel i).channelName (Memory.bytesAt m 16 (p + 16 * i.val)) }
    else dg.channel i }

def Digital.storeDigunit (m : ℕ → UInt8) (p : ℕ) (dg : Digital) : Digital :=
  { dg with
    dgMaskWord := word16 m p
    validInputs := word16 m (p + 2)
    channel := (markBits (fun ch => { ch with isEnabled := true }) dg.channel
      (word16 m (p + 2)) 16).1 }

theorem copyPhasorName_iff (b : Memory) (ph : Phasor F) (p : ℕ) (r : Phasor F × ℕ) :
    copyPhasorName b ph p = some r ↔ b.Defined p (p + 16) ∧
      ({ ph with channelName := copyName ph.channelName (Memory.bytesAt b.byte 16 p) },
        p + 16) = r := by
  simp only [copyPhasorName, Option.bind_eq_bind, bind_iff (Memory.readBytes_iff b 16 p),
    Option.some.injEq]

theorem readPhunit_iff (c : Configuration F) (b : Memory) (ph : Phasor F) (p : ℕ)
    (r : Phasor F × ℕ) : readPhunit c b ph p = some r ↔ b.Defined p (p + 4) ∧
      (ph.storePhunit c.layout.phasorIsFloatingPoint b.byte p, p + 4) = r := by
  have float : c.phasorIsFloatingPoint = c.layout.phasorIsFloatingPoint := rfl
  rw [defined_succ b p 3]
  simp only [readPhunit, Option.bind_eq_bind, Memory.read_bind, threeByteToUint32_bind,
    Phasor.storePhunit, float]
  by_cases hf : c.layout.phasorIsFloatingPoint <;>
    simp only [hf, if_true, if_false, Bool.false_eq_true, Option.some.injEq, and_assoc,
      Nat.add_assoc]

theorem copyAnalogName_iff (b : Memory) (an : Analog F) (p : ℕ) (r : Analog F × ℕ) :
    copyAnalogName b an p = some r ↔ b.Defined p (p + 16) ∧
      ({ an with channelName := copyName an.channelName (Memory.bytesAt b.byte 16 p) },
        p + 16) = r := by
  simp only [copyAnalogName, Option.bind_eq_bind, bind_iff (Memory.readBytes_iff b 16 p),
    Option.some.injEq]

theorem readAnunit_iff (b : Memory) (an : Analog F) (p : ℕ) (r : Analog F × ℕ) :
    readAnunit b an p = some r ↔ b.Defined p (p + 1) ∧ (an.storeAnunit b.byte p, p + 4) = r := by
  simp only [readAnunit, Option.bind_eq_bind, Memory.read_bind, Option.some.injEq,
    Analog.storeAnunit]

theorem storeName_succ (m : ℕ → UInt8) (p k : ℕ) (dg : Digital) :
    { dg.storeName m p k with channel := fun i =>
      if i.val = k then { (dg.storeName m p k).channel i with
        channelName := copyName ((dg.storeName m p k).channel i).channelName
          (Memory.bytesAt m 16 (p + 16 * k)) }
      else (dg.storeName m p k).channel i } = dg.storeName m p (k + 1) := by
  simp only [Digital.storeName, Digital.mk.injEq, and_true]
  funext i
  rcases Nat.lt_trichotomy i.val k with hi | rfl | hi
  · simp [hi, Nat.ne_of_lt hi, Nat.lt_succ_of_lt hi]
  · simp
  · simp [Nat.not_lt.2 (Nat.le_of_lt hi), Nat.ne_of_gt hi, Nat.not_lt.2 (Nat.succ_le_of_lt hi)]

theorem copyDigitalNames_iff (b : Memory) (dg : Digital) (p : ℕ) (r : Digital × ℕ) :
    copyDigitalNames b dg p = some r ↔
      b.Defined p (p + 256) ∧ (dg.storeName b.byte p 16, p + 256) = r := by
  have step : ∀ k < 16, ∀ u,
      copyDigitalName b k (dg.storeName b.byte p k, p + 16 * k) = some u ↔
        b.Defined (p + 16 * k) (p + 16 * (k + 1)) ∧
          (dg.storeName b.byte p (k + 1), p + 16 * (k + 1)) = u := by
    intro k _ u
    simp only [copyDigitalName, Option.bind_eq_bind, bind_iff (Memory.readBytes_iff b 16 _),
      Option.some.injEq, Nat.mul_succ, ← Nat.add_assoc, storeName_succ]
  have loop := forLoop_iff (fun k => (dg.storeName b.byte p k, p + 16 * k)) _ 16 step r
  rw [Memory.defined_blocks] at loop
  exact loop

theorem readDigunit_iff (b : Memory) (dg : Digital) (p : ℕ) (r : Digital × ℕ) :
    readDigunit b dg p = some r ↔
      b.Defined p (p + 4) ∧ (dg.storeDigunit b.byte p, p + 4) = r := by
  simp only [readDigunit, Option.bind_eq_bind, twoByteToUint16_bind, Option.some.injEq,
    Digital.storeDigunit, show p + 4 = p + 2 + 2 by omega, Memory.defined_add b p 2 2, and_assoc]

/-! Where the three tables of unit words begin, the names beginning at `p`. -/

def Layout.phunits (l : Layout) (p : ℕ) : ℕ :=
  p + 16 * l.phasors + 16 * (l.analogs + 16 * l.digitals)

def Layout.anunits (l : Layout) (p : ℕ) : ℕ :=
  p + 16 * l.analogs + (16 * (16 * l.digitals) + 4 * l.phasors)

def Layout.digunits (l : Layout) (p : ℕ) : ℕ :=
  p + 256 * l.digitals + 4 * (l.phasors + l.analogs)

def phasorsAt (l : Layout) (m : ℕ → UInt8) (p : ℕ) : List (Phasor F) :=
  (List.range l.phasors).map (fun j => Phasor.storePhunit l.phasorIsFloatingPoint m
    (l.phunits p + 4 * j) { Phasor.zero with channelName := nameAt m (p + 16 * j) })

def analogsAt (l : Layout) (m : ℕ → UInt8) (p : ℕ) : List (Analog F) :=
  (List.range l.analogs).map (fun j => Analog.storeAnunit m (l.anunits p + 4 * j)
    { Analog.zero with channelName := nameAt m (p + 16 * j) })

def digitalsAt (l : Layout) (m : ℕ → UInt8) (p : ℕ) : List Digital :=
  (List.range l.digitals).map (fun j => Digital.storeDigunit m (l.digunits p + 4 * j)
    (Digital.zero.storeName m (p + 256 * j) 16))

theorem preparePhsor_iff (c : Configuration F) (b : Memory) (p : ℕ) (r : List (Phasor F)) :
    preparePhsor c b p = some r ↔
      (b.Defined p (p + 16 * c.layout.phasors) ∧
        b.Defined (c.layout.phunits p) (c.layout.phunits p + 4 * c.layout.phasors)) ∧
        phasorsAt c.layout b.byte p = r := by
  rw [← Memory.defined_slots b p, ← Memory.defined_slots b (c.layout.phunits p)]
  exact twoPasses_iff _ _ 16 4 _ _ (copyPhasorName_iff b) (readPhunit_iff c b) c.layout.phasors
    Phasor.zero p _ r

theorem prepareAnalog_iff (c : Configuration F) (b : Memory) (p : ℕ) (r : List (Analog F)) :
    prepareAnalog c b p = some r ↔
      (b.Defined p (p + 16 * c.layout.analogs) ∧
        ∀ j < c.layout.analogs,
          b.Defined (c.layout.anunits p + 4 * j) (c.layout.anunits p + 4 * j + 1)) ∧
        analogsAt c.layout b.byte p = r := by
  rw [← Memory.defined_slots b p]
  exact twoPasses_iff _ _ 16 4 _ _ (copyAnalogName_iff b) (readAnunit_iff b) c.layout.analogs
    Analog.zero p _ r

theorem prepareDigital_iff (c : Configuration F) (b : Memory) (p : ℕ) (r : List Digital) :
    prepareDigital c b p = some r ↔
      (b.Defined p (p + 256 * c.layout.digitals) ∧
        b.Defined (c.layout.digunits p) (c.layout.digunits p + 4 * c.layout.digitals)) ∧
        digitalsAt c.layout b.byte p = r := by
  rw [← Memory.defined_slots b p, ← Memory.defined_slots b (c.layout.digunits p)]
  exact twoPasses_iff _ _ 256 4 _ _ (copyDigitalNames_iff b) (readDigunit_iff b)
    c.layout.digitals Digital.zero p _ r

def declaredAt (m : ℕ → UInt8) (p : ℕ) : Layout where
  phasorIsFloatingPoint := word16 m (p + 18) &&& 0x2 == 0x2
  phasorIsPolar := word16 m (p + 18) &&& 0x1 == 0x1
  freqIsFloatingPoint := word16 m (p + 18) &&& 0x8 == 0x8
  analogIsFloatingPoint := word16 m (p + 18) &&& 0x4 == 0x4
  phasors := (word16 m (p + 20)).toNat
  analogs := (word16 m (p + 22)).toNat
  digitals := (word16 m (p + 24)).toNat

def Configuration.storeHead (c : Configuration F) (m : ℕ → UInt8) (p : ℕ) : Configuration F :=
  { c with
    stationName := copyName c.stationName (Memory.bytesAt m 16 p)
    pmuIdcode := word16 m (p + 16)
    phasorIsPolar := (declaredAt m p).phasorIsPolar
    phasorIsFloatingPoint := (declaredAt m p).phasorIsFloatingPoint
    analogIsFloatingPoint := (declaredAt m p).analogIsFloatingPoint
    freqIsFloatingPoint := (declaredAt m p).freqIsFloatingPoint
    numberOfPhasors := word16 m (p + 20)
    numberOfAnalogs := word16 m (p + 22)
    numberOfDigitals := word16 m (p + 24) }

theorem readRecordHead_iff (c : Configuration F) (b : Memory) (p : ℕ)
    (r : Configuration F × ℕ) : readRecordHead c b p = some r ↔
      b.Defined p (p + 26) ∧ (c.storeHead b.byte p, p + 26) = r := by
  have range : b.Defined p (p + 26) ↔ b.Defined p (p + 16) ∧ b.Defined (p + 16) (p + 16 + 2) ∧
      b.Defined (p + 18) (p + 18 + 2) ∧ b.Defined (p + 20) (p + 20 + 2) ∧
        b.Defined (p + 22) (p + 22 + 2) ∧ b.Defined (p + 24) (p + 24 + 2) := by
    rw [Memory.defined_append (p := p + 22) (by omega) (by omega),
      Memory.defined_append (p := p + 20) (by omega) (by omega),
      Memory.defined_append (p := p + 18) (by omega) (by omega),
      Memory.defined_append (p := p + 16) (by omega) (by omega),
      Memory.defined_append (by omega) (by omega)]
  simp only [range, readRecordHead, Option.bind_eq_bind, bind_iff (Memory.readBytes_iff b 16 p),
    twoByteToUint16_bind, Option.some.injEq, and_assoc]
  exact Iff.rfl

/-- Where FNOM of a record at `p` is read, the cursor having passed the names of
    phasors and analogs with the counts of the first record. -/
def fnomAt (first own : Layout) (p : ℕ) : ℕ :=
  p + 26 + 16 * first.phasors + 16 * first.analogs +
    (16 * 16 * own.digitals + 4 * (own.analogs + own.digitals + own.phasors))

/-- The record that the parser makes of the bytes at `p`. -/
def recordAt (first : Layout) (m : ℕ → UInt8) (p : ℕ) : Configuration F :=
  let own := declaredAt m p
  let pAnalog := p + 26 + 16 * first.phasors
  let pDigital := pAnalog + 16 * first.analogs
  { (Configuration.zero (F := F)).storeHead m p with
    phasor := if own.phasors ≠ 0 then phasorsAt first m (p + 26) else []
    analog := if own.analogs ≠ 0 then analogsAt first m pAnalog else []
    digital := if own.digitals ≠ 0 then digitalsAt first m pDigital else []
    fNom := if word16 m (fnomAt first own p) &&& 0x1 = 0 then FloatArith.ofInt 60
      else FloatArith.ofInt 50
    cfgCnt := word16 m (fnomAt first own p + 2) }

/-- The bytes that are read for a record at `p`. -/
def RecordDefined (b : Memory) (first own : Layout) (p : ℕ) : Prop :=
  let pAnalog := p + 26 + 16 * first.phasors
  let pDigital := pAnalog + 16 * first.analogs
  b.Defined p (p + 26) ∧
  (own.phasors ≠ 0 → b.Defined (p + 26) pAnalog ∧
    b.Defined (first.phunits (p + 26)) (first.phunits (p + 26) + 4 * first.phasors)) ∧
  (own.analogs ≠ 0 → b.Defined pAnalog pDigital ∧ ∀ j < first.analogs,
    b.Defined (first.anunits pAnalog + 4 * j) (first.anunits pAnalog + 4 * j + 1)) ∧
  (own.digitals ≠ 0 → b.Defined pDigital (pDigital + 256 * first.digitals) ∧
    b.Defined (first.digunits pDigital) (first.digunits pDigital + 4 * first.digitals)) ∧
  b.Defined (fnomAt first own p) (fnomAt first own p + 4)

theorem word_ne_zero_iff (w : UInt16) : w ≠ 0 ↔ w.toNat ≠ 0 := by
  rw [ne_eq, ne_eq, ← UInt16.toNat_inj]
  rfl

theorem prepareRecord_iff (b : Memory) (l : List (Configuration F)) (i p : ℕ) (first : Layout)
    (hi : l[i]? = some Configuration.zero)
    (hfirst : ∃ d, (l.set i (Configuration.zero.storeHead b.byte p))[0]? = some d ∧
      d.layout = first) (r : List (Configuration F) × ℕ) :
    prepareRecord b i (l, p) = some r ↔ RecordDefined b first (declaredAt b.byte p) p ∧
      (l.set i (recordAt first b.byte p), fnomAt first (declaredAt b.byte p) p + 4) = r := by
  obtain ⟨d, hd, rfl⟩ := hfirst
  have anyPhasor : (Configuration.zero.storeHead b.byte p : Configuration F).numberOfPhasors ≠ 0 ↔
      (declaredAt b.byte p).phasors ≠ 0 := word_ne_zero_iff _
  have anyAnalog : (Configuration.zero.storeHead b.byte p : Configuration F).numberOfAnalogs ≠ 0 ↔
      (declaredAt b.byte p).analogs ≠ 0 := word_ne_zero_iff _
  have anyDigital :
      (Configuration.zero.storeHead b.byte p : Configuration F).numberOfDigitals ≠ 0 ↔
      (declaredAt b.byte p).digitals ≠ 0 := word_ne_zero_iff _
  have tail := Memory.defined_add b (fnomAt d.layout (declaredAt b.byte p) p) 2 2
  simp only [prepareRecord, hi, Option.bind_eq_bind, Option.bind_some,
    bind_iff (readRecordHead_iff _ b p), hd, bind_iff (ite_iff _ (preparePhsor_iff d b _) _),
    bind_iff (ite_iff _ (prepareAnalog_iff d b _) _),
    bind_iff (ite_iff _ (prepareDigital_iff d b _) _), twoByteToUint16_bind, Option.some.injEq,
    anyPhasor, anyAnalog, anyDigital]
  simp only [RecordDefined, tail, and_assoc]
  exact Iff.rfl

/-! The loop over the records, the first one starting at `p`. -/

/-- Where the cursor stands when the parser begins with record `i`. -/
def recordPos (m : ℕ → UInt8) (p : ℕ) : ℕ → ℕ
  | 0 => p
  | i + 1 => fnomAt (declaredAt m p) (declaredAt m (recordPos m p i)) (recordPos m p i) + 4

def configurationAt (m : ℕ → UInt8) (p n : ℕ) : List (Configuration F) :=
  (List.range n).map (fun i => recordAt (declaredAt m p) m (recordPos m p i))

theorem layout_storeHead (c : Configuration F) (m : ℕ → UInt8) (p : ℕ) :
    (c.storeHead m p).layout = declaredAt m p := rfl

theorem layout_recordAt (first : Layout) (m : ℕ → UInt8) (p : ℕ) :
    (recordAt first m p : Configuration F).layout = declaredAt m p := rfl

def recordsAfter (m : ℕ → UInt8) (p n i : ℕ) : List (Configuration F) × ℕ :=
  (sweep (fun k _ => recordAt (declaredAt m p) m (recordPos m p k)) i
    (List.replicate n Configuration.zero), recordPos m p i)

theorem record_step (b : Memory) (p n i : ℕ) (hi : i < n) (u : List (Configuration F) × ℕ) :
    prepareRecord b i (recordsAfter b.byte p n i) = some u ↔
      RecordDefined b (declaredAt b.byte p) (declaredAt b.byte (recordPos b.byte p i))
        (recordPos b.byte p i) ∧ recordsAfter b.byte p n (i + 1) = u := by
  have fresh : (List.replicate n Configuration.zero)[i]? = some (Configuration.zero (F := F)) := by
    rw [List.getElem?_replicate, if_pos hi]
  have same : (recordsAfter (F := F) b.byte p n i).1[i]? = some Configuration.zero := by
    rw [← fresh]
    exact sweep_get_ge _ _ (le_refl i)
  have first : ∃ d, ((recordsAfter (F := F) b.byte p n i).1.set i
      (Configuration.zero.storeHead b.byte (recordPos b.byte p i)))[0]? = some d ∧
        d.layout = declaredAt b.byte p := by
    cases i with
    | zero =>
      refine ⟨_, List.getElem?_set_self ?_, layout_storeHead _ _ _⟩
      simpa [recordsAfter] using hi
    | succ i =>
      refine ⟨recordAt (declaredAt b.byte p) b.byte p, ?_, layout_recordAt _ _ _⟩
      have start : (List.replicate n Configuration.zero)[0]? =
          some (Configuration.zero (F := F)) := by
        rw [List.getElem?_replicate, if_pos (by omega)]
      rw [List.getElem?_set_ne (by omega), recordsAfter, sweep_get_lt _ _ (by omega), start]
      rfl
  have next := sweep_set (fun k (_ : Configuration F) =>
    recordAt (declaredAt b.byte p) b.byte (recordPos b.byte p k)) i _ _ fresh
  rw [show recordsAfter b.byte p n i =
      ((recordsAfter b.byte p n i).1, recordPos b.byte p i) from rfl,
    prepareRecord_iff b _ i _ _ same first, recordsAfter, recordsAfter, next, recordPos]

theorem prepareConfiguration_iff (self : Client F) (b : Memory) (p : ℕ)
    (r : List (Configuration F)) : prepareConfiguration self b p = some r ↔
      (∀ i < self.numPmu.toNat, RecordDefined b (declaredAt b.byte p)
        (declaredAt b.byte (recordPos b.byte p i)) (recordPos b.byte p i)) ∧
        configurationAt b.byte p self.numPmu.toNat = r := by
  have loop := forLoop_iff (recordsAfter (F := F) b.byte p self.numPmu.toNat) _ self.numPmu.toNat
    (fun i hi => record_step b p _ i hi)
  simp only [recordsAfter, sweep_zero, recordPos] at loop
  simp only [prepareConfiguration, Option.bind_eq_bind, bind_iff loop, Option.some.injEq,
    sweep_replicate]
  exact Iff.rfl

/-- The client after the configuration frame of `n` bytes in `m` has been accepted. -/
def Client.storeConfiguration (self : Client F) (m : ℕ → UInt8) (n : ℕ) : Client F :=
  { self with
    idcode := word16 m 4
    timeBase := word32 m 14
    configTimeStamp := timeAt self.configTimeStamp 1000 m 6
    numPmu := word16 m 18
    dataRate := word16 m (n - 4)
    configuration := configurationAt m 20 (word16 m 18).toNat }

def RecordsDefined (b : Memory) : Prop :=
  ∀ i < (word16 b.byte 18).toNat, RecordDefined b (declaredAt b.byte 20)
    (declaredAt b.byte (recordPos b.byte 20 i)) (recordPos b.byte 20 i)

theorem parseConfigurationFrame_iff (self : Client F) (b : Memory) (n : ℕ) (h2 : 2 ≤ n)
    (h : n < 2 ^ 31) (r : ℤ × Client F) : parseConfigurationFrame self b n = some r ↔
      ((b.Defined 0 n ∧ FramePasses 0x31 self.idcode b.byte n ∧ b.Defined 0 20 ∧ 4 ≤ n ∧
          RecordsDefined b) ∧ (0, self.storeConfiguration b.byte n) = r) ∨
        (checkFrame 0x31 self b n = some none ∧ (-1, self) = r) := by
  have range : b.Defined 0 20 ↔ b.Defined 0 6 ∧ b.Defined 14 (14 + 4) ∧ b.Defined 6 (6 + 8) ∧
      b.Defined 18 (18 + 2) := by
    rw [and_left_comm (a := b.Defined 14 _), Memory.defined_append (p := 14) (by omega) (by omega),
      Memory.defined_append (p := 6) (by omega) (by omega),
      Memory.defined_append (by omega) (by omega)]
  unfold parseConfigurationFrame
  refine (afterChecks_iff h2 h (D := b.Defined 14 (14 + 4) ∧ b.Defined 6 (6 + 8) ∧
    b.Defined 18 (18 + 2) ∧ 4 ≤ n ∧ RecordsDefined b)
    (v := (0, self.storeConfiguration b.byte n)) (fun hn hpass r => ?_) r).trans ?_
  · have size : (word16 b.byte 2).toNat = n := hpass.2.2.2.1
    have rate : ∀ r, (if 4 ≤ n then some (n - 4) else none) = some r ↔ 4 ≤ n ∧ n - 4 = r := by
      simp
    have tail : 4 ≤ n → b.Defined (n - 4) (n - 4 + 2) :=
      fun h4 => hn.mono (by omega) (by omega)
    simp only [Option.bind_eq_bind, size, fourByteToUint32_bind,
      bind_iff (parseTimeStamp_iff _ _ b _), twoByteToUint16_bind, bind_iff rate,
      bind_iff (prepareConfiguration_iff _ b _), Option.some.injEq, and_assoc]
    refine and_congr Iff.rfl (and_congr Iff.rfl (and_congr Iff.rfl ?_))
    constructor
    · rintro ⟨h4, _, records, rfl⟩
      exact ⟨h4, records, rfl⟩
    · rintro ⟨h4, records, rfl⟩
      exact ⟨h4, tail h4, records, rfl⟩
  · rw [range]
    tauto

theorem parseConfigurationFrame_accepted {self self' : Client F} {b : Memory} {bufferSize : ℤ}
    (run : parseConfigurationFrame self b bufferSize = some (0, self')) :
    ∃ n : ℕ, bufferSize = n ∧ FramePasses 0x31 self.idcode b.byte n ∧
      self' = self.storeConfiguration b.byte n := by
  have size := run
  unfold parseConfigurationFrame at size
  obtain ⟨_, n, h2, hn, rfl⟩ := afterChecks_size (by simp) size
  rcases (parseConfigurationFrame_iff self b n h2 (by omega) _).1 run with
    ⟨⟨_, pass, _⟩, hr⟩ | ⟨_, hr⟩
  · cases hr
    exact ⟨n, rfl, pass, rfl⟩
  · simp at hr

end Khorjin
