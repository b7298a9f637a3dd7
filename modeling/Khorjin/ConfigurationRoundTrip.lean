import Khorjin.ConfigurationEncoding

set_option autoImplicit false

/-!
# What the client makes of a sent configuration
-/
namespace Khorjin
open ByteMemory LoopRules
variable {F D : Type} [Platform F D]

def paddedName (name : SentName) : Name := copyName Name.zero name

/-- The type byte of a PHUNIT word is 0 for a voltage. -/
def PhasorChannel.isVoltage (ch : PhasorChannel) : Bool := (ch.phunit / 0x1000000).toUInt8 == 0

def PhasorChannel.factor (ch : PhasorChannel) : UInt32 := ch.phunit % 0x1000000

def AnalogChannel.analogType (ch : AnalogChannel) : UInt8 := (ch.anunit / 0x1000000).toUInt8

structure Configuration.Carries (c : Configuration F) (r : PmuRecord) : Prop where
  stationName : c.stationName = paddedName r.stationName
  pmuIdcode : c.pmuIdcode = r.idCode
  layout : c.layout = r.layout
  phasorNames : c.phasor.map (fun ph => ph.channelName) =
    r.phasors.map (fun ch => paddedName ch.name)
  phasorTypes : c.phasor.map (fun ph => ph.phasorIsVorI) = r.phasors.map PhasorChannel.isVoltage
  phasorFactors : ¬ r.layout.phasorIsFloatingPoint →
    c.phasor.map (fun ph => ph.conversionFactor) = r.phasors.map (fun ch => scalePhunit ch.factor)
  analogNames : c.analog.map (fun an => an.channelName) =
    r.analogs.map (fun ch => paddedName ch.name)
  analogTypes : c.analog.map (fun an => an.analogType) = r.analogs.map AnalogChannel.analogType
  digitalNames : c.digital.map (fun dg k => (dg.channel k).channelName) =
    r.digitals.map (fun d k => paddedName (d.names k))
  digitalMasks : c.digital.map (fun dg => dg.dgMaskWord) = r.digitals.map (fun d => d.mask)
  digitalInputs : c.digital.map (fun dg => dg.validInputs) = r.digitals.map (fun d => d.valid)
  digitalEnabled : c.digital.map (fun dg k => (dg.channel k).isEnabled) =
    r.digitals.map (fun d k => d.valid.toNat.testBit k.val)
  fNom : c.fNom = FloatArith.ofInt (if r.fnom &&& 0x1 = 0 then 60 else 50)
  cfgCnt : c.cfgCnt = r.cfgcnt

theorem Configuration.Carries.arraysMatch {c : Configuration F} {r : PmuRecord}
    (h : c.Carries r) : c.ArraysMatch := by
  have phasors := congrArg List.length h.phasorNames
  have analogs := congrArg List.length h.analogNames
  have digitals := congrArg List.length h.digitalMasks
  rw [List.length_map, List.length_map] at phasors analogs digitals
  exact ⟨phasors.trans (congrArg Layout.phasors h.layout).symm,
    analogs.trans (congrArg Layout.analogs h.layout).symm,
    digitals.trans (congrArg Layout.digitals h.layout).symm⟩

def Client.Carries (self : Client F) (f : Cfg2) : Prop :=
  self.numPmu.toNat = f.records.length ∧ self.timeBase = f.timeBase ∧
    self.dataRate = f.dataRate ∧ List.Forall₂ Configuration.Carries self.configuration f.records

theorem declaredAt_of_holds {m : ℕ → UInt8} {p : ℕ} {r : PmuRecord} (h : Holds m p r.encode) :
    declaredAt m p = r.layout ∧ word16 m (p + 16) = r.idCode ∧
      nameAt m p = paddedName r.stationName := by
  have head := (record_parts h).1
  simp only [PmuRecord.encodeHead, holds_append_iff, List.length_append, sentName_length,
    encode16_length, encodeCount_length, and_assoc] at head
  obtain ⟨name, idCode, format, phasors, analogs, digitals⟩ := head
  refine ⟨?_, word16_of_holds idCode, ?_⟩
  · have format : word16 m (p + 18) = r.format := word16_of_holds format
    have phasors : (word16 m (p + 20)).toNat = _ := word16_of_holdsCount phasors r.phasors_lt
    have analogs : (word16 m (p + 22)).toNat = _ := word16_of_holdsCount analogs r.analogs_lt
    have digitals : (word16 m (p + 24)).toNat = _ := word16_of_holdsCount digitals r.digitals_lt
    rw [declaredAt, format, phasors, analogs, digitals]
    rfl
  · rw [nameAt, bytesAt_of_holds name]
    rfl

def PhasorChannel.received (floating : Bool) (ch : PhasorChannel) : Phasor F :=
  { Phasor.zero with
    channelName := paddedName ch.name
    phasorIsVorI := ch.isVoltage
    conversionFactor := if floating then FloatArith.ofInt 1 else scalePhunit ch.factor }

def AnalogChannel.received (ch : AnalogChannel) : Analog F :=
  { Analog.zero with
    channelName := paddedName ch.name
    analogType := ch.analogType
    conversionFactor := FloatArith.ofInt 1 }

def DigitalWord.received (d : DigitalWord) : Digital where
  channel k := ⟨paddedName (d.names k), false, d.valid.toNat.testBit k.val⟩
  digitalWord := 0
  dgMaskWord := d.mask
  validInputs := d.valid

theorem nameAt_of_holds {m : ℕ → UInt8} {p : ℕ} {name : SentName} (h : Holds m p name.toList) :
    nameAt m p = paddedName name := by
  rw [nameAt, bytesAt_of_holds h]
  rfl

theorem setVorI_eq {ph : Phasor F} (current : ph.phasorIsVorI = false) (w : UInt8) :
    ph.setVorI w = { ph with phasorIsVorI := w == 0 } := by
  have zero : (w == 0) = (w.toNat == 0) := by
    rw [Bool.eq_iff_iff, beq_iff_eq, beq_iff_eq, ← UInt8.toNat_inj]
    rfl
  rw [zero, Phasor.setVorI]
  split
  · rename_i h
    rw [h]
    rfl
  · rename_i h
    rw [h]
    rfl
  · rename_i h _
    have other : (w.toNat == 0) = false := by simpa using h
    rw [other, ← current]

theorem phasorsAt_of_holds {first : Layout} {m : ℕ → UInt8} {p : ℕ} {xs : List PhasorChannel}
    (count : first.phasors = xs.length)
    (names : Holds m p (xs.flatMap (fun ch => ch.name.toList)))
    (units : Holds m (first.phunits p) (xs.flatMap (fun ch => encode32 ch.phunit))) :
    phasorsAt first m p =
      xs.map (fun ch => (ch.received first.phasorIsFloatingPoint : Phasor F)) := by
  apply map_range_eq_map count
  intro j ch hj
  have name := nameAt_of_holds
    (holds_slot (fun ch : PhasorChannel => ch.name.toList) (fun ch => sentName_length ch.name)
      names hj)
  have unit := holds_slot (fun ch : PhasorChannel => encode32 ch.phunit)
    (fun ch => encode32_length ch.phunit) units hj
  have kind : m (first.phunits p + 4 * j) = (ch.phunit / 0x1000000).toUInt8 := unit 0 _ rfl
  rw [Phasor.storePhunit, setVorI_eq rfl, word24_of_holds unit, kind, name]
  rfl

theorem analogsAt_of_holds {first : Layout} {m : ℕ → UInt8} {p : ℕ} {xs : List AnalogChannel}
    (count : first.analogs = xs.length)
    (names : Holds m p (xs.flatMap (fun ch => ch.name.toList)))
    (units : Holds m (first.anunits p) (xs.flatMap (fun ch => encode32 ch.anunit))) :
    analogsAt first m p = xs.map (fun ch => (ch.received : Analog F)) := by
  apply map_range_eq_map count
  intro j ch hj
  have name := nameAt_of_holds
    (holds_slot (fun ch : AnalogChannel => ch.name.toList) (fun ch => sentName_length ch.name)
      names hj)
  have unit := holds_slot (fun ch : AnalogChannel => encode32 ch.anunit)
    (fun ch => encode32_length ch.anunit) units hj
  have kind : m (first.anunits p + 4 * j) = ch.analogType := unit 0 _ rfl
  rw [Analog.storeAnunit, kind, name]
  rfl

theorem digitalsAt_of_holds {first : Layout} {m : ℕ → UInt8} {p : ℕ} {xs : List DigitalWord}
    (count : first.digitals = xs.length)
    (names : Holds m p (xs.flatMap DigitalWord.encodeNames))
    (units : Holds m (first.digunits p) (xs.flatMap DigitalWord.encodeUnit)) :
    digitalsAt first m p = xs.map DigitalWord.received := by
  apply map_range_eq_map count
  intro j d hj
  have name := holds_slot DigitalWord.encodeNames encodeNames_length names hj
  have unit := holds_slot DigitalWord.encodeUnit encodeUnit_length units hj
  rw [DigitalWord.encodeUnit, holds_append_iff] at unit
  have mask := word16_of_holds unit.1
  have valid : word16 m (first.digunits p + 4 * j + 2) = d.valid := word16_of_holds unit.2
  have channels : ∀ k : Fin 16,
      copyName Name.zero (Memory.bytesAt m 16 (p + 256 * j + 16 * k.val)) =
        paddedName (d.names k) := by
    intro k
    have hk : (List.ofFn d.names)[k.val]? = some (d.names k) := by
      rw [List.getElem?_ofFn, dif_pos k.isLt]
    exact nameAt_of_holds (holds_slot _ sentName_length name hk)
  rw [Digital.storeDigunit, mask, valid, DigitalWord.received]
  congr 1
  funext k
  rw [markBits_channel, Digital.storeName]
  simp only [k.isLt, true_and, if_true]
  have zero : Digital.zero.channel k = ⟨Name.zero, false, false⟩ := rfl
  rw [zero, channels k]
  by_cases bit : d.valid.toNat.testBit k.val <;> simp [bit]

theorem recordAt_channels {m : ℕ → UInt8} {p : ℕ} {r : PmuRecord} {first : Layout}
    (h : Holds m p r.encode) (same : r.layout.SameCounts first) :
    (recordAt first m p : Configuration F).phasor =
        r.phasors.map (fun ch => ch.received first.phasorIsFloatingPoint) ∧
      (recordAt first m p : Configuration F).analog = r.analogs.map AnalogChannel.received ∧
      (recordAt first m p : Configuration F).digital = r.digitals.map DigitalWord.received := by
  obtain ⟨_, phasorNames, analogNames, digitalNames, phunits, anunits, digunits, _, _⟩ :=
    record_parts h
  have own := (declaredAt_of_holds h).1
  obtain ⟨phasors, analogs, digitals⟩ := same
  have phasors : r.phasors.length = first.phasors := phasors
  have analogs : r.analogs.length = first.analogs := analogs
  simp only [recordAt, own]
  rw [← phasors, ← analogs]
  refine ⟨?_, ?_, ?_⟩
  · by_cases any : r.layout.phasors = 0
    · rw [if_neg (not_not.2 any), List.length_eq_zero_iff.1 any]
      rfl
    · have same : r.layout.digitals = first.digitals :=
        digitals.resolve_right (fun absent => any absent.1)
      rw [if_pos any, phasorsAt_of_holds phasors.symm phasorNames]
      apply phunits.move
      rw [Layout.phunits, Layout.phunits, ← phasors, ← analogs, ← same]
      rfl
  · by_cases any : r.layout.analogs = 0
    · rw [if_neg (not_not.2 any), List.length_eq_zero_iff.1 any]
      rfl
    · have same : r.layout.digitals = first.digitals :=
        digitals.resolve_right (fun absent => any absent.2.1)
      rw [if_pos any, analogsAt_of_holds analogs.symm analogNames]
      apply anunits.move
      rw [Layout.anunits, Layout.anunits, ← phasors, ← analogs, ← same]
      rfl
  · by_cases any : r.layout.digitals = 0
    · rw [if_neg (not_not.2 any), List.length_eq_zero_iff.1 any]
      rfl
    · have same : r.layout.digitals = first.digitals :=
        digitals.resolve_right (fun absent => any absent.2.2)
      rw [if_pos any, digitalsAt_of_holds same.symm digitalNames]
      apply digunits.move
      rw [Layout.digunits, Layout.digunits, ← phasors, ← analogs, ← same]
      rfl

/-- The factors of integer phasors are read unless the first record says floating point. -/
def Layout.FactorsRead (own first : Layout) : Prop :=
  own.phasors = 0 ∨ own.phasorIsFloatingPoint ∨ ¬ first.phasorIsFloatingPoint

instance (own first : Layout) : Decidable (own.FactorsRead first) :=
  inferInstanceAs (Decidable (_ ∨ _ ∨ _))

theorem recordAt_carries {m : ℕ → UInt8} {p : ℕ} {r : PmuRecord} {first : Layout}
    (h : Holds m p r.encode) (same : r.layout.SameCounts first)
    (factors : r.layout.FactorsRead first) : (recordAt first m p : Configuration F).Carries r := by
  obtain ⟨own, idCode, name⟩ := declaredAt_of_holds h
  obtain ⟨phasor, analog, digital⟩ := recordAt_channels (F := F) h same
  obtain ⟨_, _, _, _, _, _, _, fnom, cfgcnt⟩ := record_parts h
  have tail : fnomAt first (declaredAt m p) p = fnomAt r.layout r.layout p := by
    rw [own]
    have before := fnomAt_of_sameCounts same p
    have after := fnomAt_of_sameCounts (Layout.SameCounts.refl r.layout) p
    omega
  constructor
  case stationName => exact name
  case pmuIdcode => exact idCode
  case layout => exact (layout_recordAt first m p).trans own
  case phasorFactors =>
    intro integer
    rw [phasor, List.map_map]
    apply List.map_congr_left
    intro ch hch
    have present : ¬ r.layout.phasors = 0 := by
      intro empty
      rw [List.length_eq_zero_iff.1 empty] at hch
      exact absurd hch List.not_mem_nil
    have read : ¬ first.phasorIsFloatingPoint := (factors.resolve_left present).resolve_left integer
    exact if_neg read
  case fNom =>
    simp only [recordAt]
    rw [tail, word16_of_holds fnom]
    split_ifs <;> rfl
  case cfgCnt =>
    simp only [recordAt]
    rw [tail, word16_of_holds cfgcnt]
  all_goals
    simp only [phasor, analog, digital, List.map_map]
    rfl

theorem crcOf_of_holds {m : ℕ → UInt8} {message : List UInt8} (h : Holds m 0 message) :
    crcOf m message.length = crcOf (fun i => message.getD i 0) message.length := by
  apply crcOf_congr
  intro i hi
  have byte := h i message[i] (List.getElem?_eq_getElem hi)
  rw [Nat.zero_add] at byte
  rw [byte, List.getD_eq_getElem?_getD, List.getElem?_eq_getElem hi]
  rfl

theorem appendChk_of_holds {m : ℕ → UInt8} {body : List UInt8} (h : Holds m 0 (appendChk body)) :
    Holds m 0 body ∧ crcOf m body.length = word16 m body.length := by
  rw [appendChk, holds_append_iff, Nat.zero_add] at h
  obtain ⟨front, chk⟩ := h
  refine ⟨front, ?_⟩
  have same := crcOf_of_holds front
  have hi : m body.length = _ := chk 0 _ rfl
  have lo : m (body.length + 1) = _ := chk 1 _ rfl
  apply UInt16.toNat_inj.1
  rw [word16_toNat, hi, lo, same]
  have lt := (crcOf (fun i => body.getD i 0) body.length).toNat_lt
  have e : (256 : UInt16).toNat = 256 := rfl
  simp only [UInt16.toNat_toUInt8, UInt16.toNat_div, UInt16.toNat_mod, e]
  omega

theorem frame_parts {m : ℕ → UInt8} {f : Cfg2} (h : Holds m 0 f.encode) :
    Holds m 0 f.encodeHead ∧ Holds m 20 (f.records.flatMap PmuRecord.encode) ∧
      Holds m (f.size - 4) (encode16 f.dataRate) ∧
      crcOf m (f.size - 2) = word16 m (f.size - 2) := by
  obtain ⟨body, chk⟩ := appendChk_of_holds h
  rw [body_length] at chk
  simp only [Cfg2.encodeBody, holds_append_iff, List.length_append, cfgHead_length, Nat.zero_add,
    and_assoc] at body
  obtain ⟨head, records, rate⟩ := body
  refine ⟨head, records, rate.move ?_, chk⟩
  unfold Cfg2.size
  omega

theorem head_of_holds {m : ℕ → UInt8} {f : Cfg2} (h : Holds m 0 f.encodeHead) :
    m 0 = 0xAA ∧ m 1 = 0x31 ∧ word16 m 2 = UInt16.ofNat f.size ∧ word16 m 4 = f.idcode ∧
      word32 m 14 = f.timeBase ∧ (word16 m 18).toNat = f.records.length := by
  simp only [Cfg2.encodeHead, holds_append_iff, List.length_append, encode16_length,
    encode32_length, and_assoc] at h
  obtain ⟨sync, size, idcode, _, _, timeBase, count⟩ := h
  exact ⟨sync 0 _ rfl, sync 1 _ rfl, word16_of_holds size, word16_of_holds idcode,
    word32_of_holds timeBase, word16_of_holdsCount count f.records_lt⟩

theorem encode_passes {m : ℕ → UInt8} {f : Cfg2} (h : Holds m 0 f.encode) (lt : f.size < 2 ^ 16) :
    FramePasses 0x31 f.idcode m f.size := by
  obtain ⟨head, _, _, chk⟩ := frame_parts h
  obtain ⟨h0, h1, size, idcode, _⟩ := head_of_holds head
  refine ⟨chk, h0, h1, ?_, idcode⟩
  rw [size]
  exact Nat.mod_eq_of_lt lt

theorem formatPos_of_holds {m : ℕ → UInt8} {p : ℕ} {rs : List PmuRecord}
    (h : Holds m p (rs.flatMap PmuRecord.encode)) {i : ℕ} (hi : i ≤ rs.length) :
    formatPos m p i = p + partOffset PmuRecord.encode rs i := by
  induction i with
  | zero => rfl
  | succ i ih =>
    have hr : rs[i]? = some rs[i] := List.getElem?_eq_getElem hi
    have before := ih (by omega)
    have own := (declaredAt_of_holds (holds_flatMap h hr)).1
    rw [formatPos, before, own, partOffset_succ _ hr, record_length, Nat.add_assoc]

theorem record_of_holds {m : ℕ → UInt8} {p i : ℕ} {rs : List PmuRecord} {r : PmuRecord}
    (h : Holds m p (rs.flatMap PmuRecord.encode)) (hr : rs[i]? = some r) :
    Holds m (formatPos m p i) r.encode := by
  have lt := (List.getElem?_eq_some_iff.1 hr).choose
  rw [formatPos_of_holds h (by omega)]
  exact holds_flatMap h hr

/-- All PMUs have the counts of the first one, and the factors of integer phasors are not
    hidden by a first PMU with floating-point phasors. -/
def Cfg2.Uniform (f : Cfg2) : Prop :=
  ∀ first, f.records[0]? = some first → ∀ r ∈ f.records,
    r.layout.SameCounts first.layout ∧ r.layout.FactorsRead first.layout

theorem uniform_sameCounts {m : ℕ → UInt8} {f : Cfg2} (uniform : f.Uniform)
    (h : Holds m 20 (f.records.flatMap PmuRecord.encode)) {n : ℕ} (hn : n = f.records.length) :
    SameCountsThroughout m 20 n ∧ ∀ (i : ℕ) (r : PmuRecord), f.records[i]? = some r →
      r.layout.SameCounts (declaredAt m 20) ∧ r.layout.FactorsRead (declaredAt m 20) := by
  have each : ∀ (i : ℕ) (r : PmuRecord), f.records[i]? = some r →
      r.layout.SameCounts (declaredAt m 20) ∧ r.layout.FactorsRead (declaredAt m 20) := by
    intro i r hr
    have lt := (List.getElem?_eq_some_iff.1 hr).choose
    have hfirst : f.records[0]? = some f.records[0] := List.getElem?_eq_getElem (by omega)
    have first : declaredAt m 20 = f.records[0].layout :=
      (declaredAt_of_holds (record_of_holds h hfirst)).1
    rw [first]
    exact uniform _ hfirst r (List.mem_of_getElem? hr)
  refine ⟨?_, each⟩
  intro i hi
  have hr : f.records[i]? = some f.records[i] := List.getElem?_eq_getElem (by omega)
  rw [(declaredAt_of_holds (record_of_holds h hr)).1]
  exact (each i _ hr).1

theorem forall₂_map_range {α β : Type} {R : β → α → Prop} {f : ℕ → β} {n : ℕ} {xs : List α}
    (length : n = xs.length) (h : ∀ j x, xs[j]? = some x → R (f j) x) :
    List.Forall₂ R ((List.range n).map f) xs := by
  rw [List.forall₂_iff_get]
  refine ⟨by simpa using length, ?_⟩
  intro i _ hi
  have hx : xs[i]? = some (xs.get ⟨i, hi⟩) := List.getElem?_eq_getElem hi
  simpa using h i _ hx

theorem configurationAt_carries {m : ℕ → UInt8} {f : Cfg2} (uniform : f.Uniform)
    (h : Holds m 20 (f.records.flatMap PmuRecord.encode)) {n : ℕ} (hn : n = f.records.length) :
    List.Forall₂ Configuration.Carries (configurationAt m 20 n : List (Configuration F))
      f.records := by
  obtain ⟨same, each⟩ := uniform_sameCounts uniform h hn
  apply forall₂_map_range hn
  intro i r hr
  have lt := (List.getElem?_eq_some_iff.1 hr).choose
  rw [recordPos_eq_formatPos same (by omega)]
  exact recordAt_carries (record_of_holds h hr) (each i r hr).1 (each i r hr).2

def Cfg2.buffer (f : Cfg2) : Memory := Memory.zeroFilled BUFER_LENGTH f.encode

theorem buffer_holds {f : Cfg2} (fits : f.size ≤ BUFER_LENGTH) :
    Holds f.buffer.byte 0 f.encode :=
  holds_zeroFilled (by rwa [encode_length])

theorem fits_lt {f : Cfg2} (fits : f.size ≤ BUFER_LENGTH) : f.size < 2 ^ 16 := by
  unfold BUFER_LENGTH at fits
  omega

/-- Decoding by a client that knows the id code yields what was encoded. -/
def Cfg2.RoundTrips (F : Type) {D : Type} [Platform F D] (f : Cfg2) : Prop :=
  ∀ self : Client F, self.idcode = f.idcode →
    ∃ self', parseConfigurationFrame self f.buffer f.size = some (0, self') ∧ self'.Carries f

/-- Decoding undoes encoding for every configuration with uniform counts. -/
theorem roundTrips_of_uniform {f : Cfg2} (fits : f.size ≤ BUFER_LENGTH) (uniform : f.Uniform) :
    f.RoundTrips F := by
  intro self known
  have h := buffer_holds fits
  have mapped : ∀ p q, q ≤ BUFER_LENGTH → f.buffer.Defined p q :=
    fun p q hq => Memory.zeroFilled_defined f.encode hq
  have large : 24 ≤ f.size := Nat.le_add_right _ _
  have small := fits_lt fits
  obtain ⟨head, records, rate, _⟩ := frame_parts h
  obtain ⟨_, _, _, _, timeBase, count⟩ := head_of_holds head
  have pass := encode_passes h small
  rw [← known] at pass
  have all := formatPos_of_holds records (le_refl _)
  rw [partOffset_length, ← count] at all
  have inside : formatPos f.buffer.byte 20 (word16 f.buffer.byte 18).toNat ≤ BUFER_LENGTH := by
    rw [all]
    unfold Cfg2.size at fits
    omega
  have read := recordsDefined_of_sameCounts (uniform_sameCounts uniform records count).1
    (mapped _ _ inside)
  refine ⟨_, (parseConfigurationFrame_iff self _ f.size (by omega) (by omega) _).2
    (.inl ⟨⟨mapped _ _ fits, pass, mapped _ _ (by decide), by omega, read⟩, rfl⟩), ?_⟩
  exact ⟨count, timeBase, word16_of_holds rate, configurationAt_carries uniform records count⟩

end Khorjin
