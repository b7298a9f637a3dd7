import Khorjin.ArrayInvariant
import Khorjin.DataSamples
import Khorjin.FrameExtent

set_option autoImplicit false

/-!
# What else a sample depends on

Beyond the configuration and the latest frame, a sample depends on what earlier
frames left in the record and on the local floats, which one PMU's block passes on
to the next. Both dependences are stated as exact conditions.
-/
namespace Khorjin
open ByteMemory LoopRules
variable {F D : Type} [Platform F D]

namespace Layout

/-- The slot of a block at `p` whose float stays in `tempFloat_1`. -/
def lastSlot_1 (l : Layout) (p : ℕ) : Option ℕ :=
  if l.analogIsFloatingPoint ∧ l.analogs ≠ 0 then some (p + l.analogOffset + 4 * (l.analogs - 1))
  else if l.freqIsFloatingPoint then some (p + l.freqOffset + 4)
  else if l.phasorIsFloatingPoint ∧ l.phasors ≠ 0 then some (p + 2 + 8 * (l.phasors - 1))
  else none

def lastSlot_2 (l : Layout) (p : ℕ) : Option ℕ :=
  if l.phasorIsFloatingPoint ∧ l.phasors ≠ 0 then some (p + 2 + 8 * (l.phasors - 1) + 4) else none

end Layout

def slotOr (m : ℕ → UInt8) (x : F) (slot : Option ℕ) : F := slot.elim x (float32 m)

theorem phasorTemps_eq (l : Layout) (m : ℕ → UInt8) (t : Temps F) (p n : ℕ) :
    phasorTemps l m t p n = if l.phasorIsFloatingPoint ∧ n ≠ 0 then
      ⟨float32 m (p + 8 * (n - 1)), float32 m (p + 8 * (n - 1) + 4)⟩ else t := by
  cases n with
  | zero => simp [phasorTemps]
  | succ j => simp [phasorTemps]

theorem analogTemps_eq (l : Layout) (m : ℕ → UInt8) (t : Temps F) (p n : ℕ) :
    analogTemps l m t p n = if l.analogIsFloatingPoint ∧ n ≠ 0 then
      { t with tempFloat_1 := float32 m (p + 4 * (n - 1)) } else t := by
  cases n with
  | zero => simp [analogTemps]
  | succ j => simp [analogTemps]

theorem blockTemps_eq (l : Layout) (m : ℕ → UInt8) (t : Temps F) (p : ℕ) :
    blockTemps l m t p =
      ⟨slotOr m t.tempFloat_1 (l.lastSlot_1 p), slotOr m t.tempFloat_2 (l.lastSlot_2 p)⟩ := by
  unfold blockTemps Layout.lastSlot_1 Layout.lastSlot_2 freqTemps
  rw [phasorTemps_eq, analogTemps_eq]
  unfold slotOr
  split_ifs <;> rfl

def lastSlotBefore (slot : Layout → ℕ → Option ℕ) (ls : List Layout) (p : ℕ) : ℕ → Option ℕ
  | 0 => none
  | i + 1 =>
    (ls[i]?.bind (fun l => slot l (p + blockOffset ls i))).or (lastSlotBefore slot ls p i)

theorem slotOr_or (m : ℕ → UInt8) (x : F) (slot slot' : Option ℕ) :
    slotOr m x (slot.or slot') = slotOr m (slotOr m x slot') slot := by
  cases slot <;> rfl

theorem tempsBefore_eq (ls : List Layout) (m : ℕ → UInt8) (t : Temps F) (p i : ℕ) :
    tempsBefore ls m t p i =
      ⟨slotOr m t.tempFloat_1 (lastSlotBefore Layout.lastSlot_1 ls p i),
        slotOr m t.tempFloat_2 (lastSlotBefore Layout.lastSlot_2 ls p i)⟩ := by
  induction i with
  | zero => rfl
  | succ i ih =>
    cases hl : ls[i]? with
    | none => simp [tempsBefore, lastSlotBefore, hl, ih]
    | some l =>
      simp only [tempsBefore, lastSlotBefore, hl, ih, blockTemps_eq, Option.bind_some, slotOr_or]

def Client.staleFloats (self : Client F) (m : ℕ → UInt8) (t : Temps F) (i : ℕ) : Temps F :=
  ⟨slotOr m t.tempFloat_1 (lastSlotBefore Layout.lastSlot_1 self.layouts 14 i),
    slotOr m t.tempFloat_2 (lastSlotBefore Layout.lastSlot_2 self.layouts 14 i)⟩

theorem blockTemps_eq_staleFloats (self : Client F) (m : ℕ → UInt8) (t : Temps F) (i : ℕ) :
    self.blockTemps m t i = self.staleFloats m t i :=
  tempsBefore_eq self.layouts m t 14 i

/-- What the time stamps keep agrees, or is overwritten: `nibble` is the low half of the
    time-quality byte. -/
structure TimeAgrees (nibble : ℕ) (timeBase : UInt32) (t t' : Time F) : Prop where
  timeIsLocked : nibble = 0xF ∨ nibble = 0 ∨ t.quality.timeIsLocked = t'.quality.timeIsLocked
  timeError : nibble ≤ 0xB ∨ t.quality.timeError = t'.quality.timeError
  fraction : timeBase ≠ 0 ∨
    t.timeValueInMs = t'.timeValueInMs ∧ t.fractionOfSecond = t'.fractionOfSecond

theorem setTimeError_timeIsLocked (q : TimeQuality F) (x : UInt8) :
    (setTimeError q x).timeIsLocked =
      if x.toNat = 0xF then false else if x.toNat = 0 then true else q.timeIsLocked := by
  unfold setTimeError
  split <;> simp_all

theorem setTimeError_timeError_congr {x : UInt8} (h : x.toNat ≤ 0xB) (q q' : TimeQuality F) :
    (setTimeError q x).timeError = (setTimeError q' x).timeError := by
  unfold setTimeError
  split <;> grind

theorem setTimeError_timeError_keep {x : UInt8} (h : 0xB < x.toNat) (q : TimeQuality F) :
    (setTimeError q x).timeError = q.timeError := by
  unfold setTimeError
  split <;> first | rfl | omega

theorem setTimeError_timeIsLocked_eq_iff (q q' : TimeQuality F) (x : UInt8) :
    (setTimeError q x).timeIsLocked = (setTimeError q' x).timeIsLocked ↔
      x.toNat = 0xF ∨ x.toNat = 0 ∨ q.timeIsLocked = q'.timeIsLocked := by
  rw [setTimeError_timeIsLocked, setTimeError_timeIsLocked]
  by_cases unlocked : x.toNat = 0xF
  · simp [unlocked]
  · by_cases locked : x.toNat = 0 <;> simp [unlocked, locked]

theorem setTimeError_timeError_eq_iff (q q' : TimeQuality F) (x : UInt8) :
    (setTimeError q x).timeError = (setTimeError q' x).timeError ↔
      x.toNat ≤ 0xB ∨ q.timeError = q'.timeError := by
  by_cases known : x.toNat ≤ 0xB
  · simp [known, setTimeError_timeError_congr known q q']
  · have keep := setTimeError_timeError_keep (F := F) (Nat.lt_of_not_le known)
    rw [keep, keep]
    simp [known]

theorem setFraction_eq_iff (t t' : Time F) (soc fracsec timeBase : UInt32) :
    ((setFraction t soc fracsec timeBase).timeValueInMs =
        (setFraction t' soc fracsec timeBase).timeValueInMs ∧
      (setFraction t soc fracsec timeBase).fractionOfSecond =
        (setFraction t' soc fracsec timeBase).fractionOfSecond) ↔
      timeBase ≠ 0 ∨
        t.timeValueInMs = t'.timeValueInMs ∧ t.fractionOfSecond = t'.fractionOfSecond := by
  unfold setFraction
  by_cases base : timeBase ≠ 0 <;> simp [base]

theorem timeAt_eq_iff (t t' : Time F) (timeBase : UInt32) (m : ℕ → UInt8) (p : ℕ) :
    timeAt t timeBase m p = timeAt t' timeBase m p ↔
      TimeAgrees (m (p + 4) &&& 0xF).toNat timeBase t t' := by
  have locked := setTimeError_timeIsLocked_eq_iff t.quality t'.quality (m (p + 4) &&& 0xF)
  have error := setTimeError_timeError_eq_iff t.quality t'.quality (m (p + 4) &&& 0xF)
  have fraction := setFraction_eq_iff t t' (word32 m p) (word24 m (p + 5)) timeBase
  constructor
  · intro h
    have hlocked := congrArg (fun s => s.quality.timeIsLocked) h
    have herror := congrArg (fun s => s.quality.timeError) h
    have ms := congrArg Time.timeValueInMs h
    have seconds := congrArg Time.fractionOfSecond h
    exact ⟨locked.1 hlocked, error.1 herror, fraction.1 ⟨ms, seconds⟩⟩
  · rintro ⟨hlocked, herror, hfraction⟩
    obtain ⟨ms, seconds⟩ := fraction.2 hfraction
    simp only [timeAt, ms, seconds, parseTimeQuality, locked.2 hlocked, error.2 herror]

theorem storeData_sample {self : Client F} {i : ℕ} {c : Configuration F}
    (hi : i < self.numPmu.toNat) (hc : self.configuration[i]? = some c) (t : Temps F)
    (m : ℕ → UInt8) : (self.storeData t m).configuration[i]?.map Configuration.sample =
      some (blockAt c m (self.staleFloats m t i) (self.blockBase i)).sample := by
  rw [storeData_get hi hc, blockTemps_eq_staleFloats]
  rfl

theorem storeData_sample_eq_iff {self self' : Client F} {i : ℕ} {c c' : Configuration F}
    (hi : i < self.numPmu.toNat) (hi' : i < self'.numPmu.toNat)
    (hc : self.configuration[i]? = some c) (hc' : self'.configuration[i]? = some c')
    (same : SameRecord c c') (inside : c.CountsInside) (inside' : c'.CountsInside)
    (base : self.blockBase i = self'.blockBase i) {m m' : ℕ → UInt8}
    (bytes : SameBytes m' m (self.blockBase i) (self.blockBase (i + 1))) (t t' : Temps F) :
    (self.storeData t m).configuration[i]?.map Configuration.sample =
        (self'.storeData t' m').configuration[i]?.map Configuration.sample ↔
      BlockAgrees m (self.blockBase i) (self.staleFloats m t i) (self'.staleFloats m' t' i)
        c c' := by
  rw [blockBase_succ hc, same.layout] at bytes
  rw [storeData_sample hi hc, storeData_sample hi' hc', Option.some.injEq, ← base,
    blockAt_congr bytes]
  exact blockAt_sample_eq_iff same inside inside' m _ _ _

structure Sample (F : Type) where
  dataTimeStamp : Time F
  pmus : List (PmuSample F)
deriving DecidableEq

def Client.sample (self : Client F) : Sample F :=
  ⟨self.dataTimeStamp, (self.configuration.take self.numPmu.toNat).map Configuration.sample⟩

/-- Two clients agree on everything that a configuration frame installs. -/
structure SameInstalled (one other : Client F) : Prop where
  idcode : one.idcode = other.idcode
  timeBase : one.timeBase = other.timeBase
  numPmu : one.numPmu = other.numPmu
  record : ∀ i < one.numPmu.toNat, ∀ c c', one.configuration[i]? = some c →
    other.configuration[i]? = some c' → SameRecord c c'

/-- Whatever two clients kept from earlier frames agrees where the frame `m` does not
    overwrite it. -/
structure HistoryAgrees (t t' : Temps F) (one other : Client F) (m : ℕ → UInt8) : Prop where
  time : TimeAgrees (m 10 &&& 0xF).toNat one.timeBase one.dataTimeStamp other.dataTimeStamp
  record : ∀ i < one.numPmu.toNat, ∀ c c', one.configuration[i]? = some c →
    other.configuration[i]? = some c' → BlockAgrees m (one.blockBase i)
      (one.staleFloats m t i) (other.staleFloats m t' i) c c'

theorem SameInstalled.blockBase {self self' : Client F} (installed : SameInstalled self self')
    (inside : self.ArraysInside) (inside' : self'.ArraysInside) {i : ℕ}
    (hi : i ≤ self.numPmu.toNat) : self.blockBase i = self'.blockBase i := by
  induction i with
  | zero => rfl
  | succ i ih =>
    obtain ⟨c, hc, _⟩ := inside i hi
    obtain ⟨c', hc', _⟩ := inside' i (installed.numPmu ▸ hi)
    have same := installed.record i hi c c' hc hc'
    rw [blockBase_succ hc, blockBase_succ hc', ih (by omega), same.layout]

theorem sample_eq_iff {s s' : Client F} (count : s.numPmu = s'.numPmu) :
    s.sample = s'.sample ↔ s.dataTimeStamp = s'.dataTimeStamp ∧ ∀ i < s.numPmu.toNat,
      s.configuration[i]?.map Configuration.sample =
        s'.configuration[i]?.map Configuration.sample := by
  rw [Client.sample, Client.sample, Sample.mk.injEq, ← count, map_take_eq_iff]

theorem SameInstalled.sample_eq_iff {self self' : Client F} (installed : SameInstalled self self')
    (inside : self.ArraysInside) (inside' : self'.ArraysInside) {i : ℕ}
    (hi : i < self.numPmu.toNat) (t t' : Temps F) (m : ℕ → UInt8) :
    (self.storeData t m).configuration[i]?.map Configuration.sample =
        (self'.storeData t' m).configuration[i]?.map Configuration.sample ↔
      ∀ c c', self.configuration[i]? = some c → self'.configuration[i]? = some c' →
        BlockAgrees m (self.blockBase i) (self.staleFloats m t i) (self'.staleFloats m t' i)
          c c' := by
  have hi' : i < self'.numPmu.toNat := installed.numPmu ▸ hi
  obtain ⟨c, hc, counts⟩ := inside i hi
  obtain ⟨c', hc', counts'⟩ := inside' i hi'
  have base := installed.blockBase inside inside' (le_of_lt hi)
  rw [storeData_sample_eq_iff hi hi' hc hc' (installed.record i hi c c' hc hc') counts counts' base
    (fun _ _ _ => rfl) t t', hc, hc']
  constructor
  · rintro agrees _ _ ⟨⟩ ⟨⟩
    exact agrees
  · intro agrees
    exact agrees c c' rfl rfl

/-- Two clients with one configuration that both accept a data frame report the same sample
    exactly when their histories agree on what the frame leaves unwritten. -/
theorem samples_agree_iff {t t' : Temps F} {self self' s s' : Client F} {b : Memory}
    {bufferSize : ℤ} (installed : SameInstalled self self')
    (run : parseDataFrame t self b bufferSize = some (0, s))
    (run' : parseDataFrame t' self' b bufferSize = some (0, s')) :
    s.sample = s'.sample ↔ HistoryAgrees t t' self self' b.byte := by
  obtain ⟨n, rfl, _, _, inside, _, rfl⟩ := parseDataFrame_accepted run
  obtain ⟨_, _, _, _, inside', _, rfl⟩ := parseDataFrame_accepted run'
  have stamp : (self.storeData t b.byte).dataTimeStamp = (self'.storeData t' b.byte).dataTimeStamp ↔
      TimeAgrees (b.byte 10 &&& 0xF).toNat self.timeBase self.dataTimeStamp
        self'.dataTimeStamp := by
    rw [← timeAt_eq_iff self.dataTimeStamp self'.dataTimeStamp self.timeBase b.byte 6,
      Client.storeData, Client.storeData, installed.timeBase]
  have count : (self.storeData t b.byte).numPmu = (self'.storeData t' b.byte).numPmu :=
    installed.numPmu
  rw [sample_eq_iff count, stamp]
  constructor
  · rintro ⟨time, records⟩
    refine ⟨time, fun i hi => ?_⟩
    exact (installed.sample_eq_iff inside inside' hi t t' b.byte).1 (records i hi)
  · rintro ⟨time, records⟩
    refine ⟨time, fun i hi => ?_⟩
    exact (installed.sample_eq_iff inside inside' hi t t' b.byte).2 (records i hi)

theorem blockAgrees_self_iff (m : ℕ → UInt8) (p : ℕ) (t t' : Temps F) (c : Configuration F) :
    BlockAgrees m p t t' c c ↔
      (c.layout.IntegerPolar → ∀ k < c.layout.phasors, ∀ ph, c.phasor[k]? = some ph →
        staleProduct t ph.conversionFactor = staleProduct t' ph.conversionFactor) := by
  constructor
  · intro h
    exact h.phasor
  · intro phasor
    refine ⟨⟨.inr rfl, .inr rfl, .inr rfl, .inr rfl, .inr rfl⟩, .inr rfl, phasor, ?_⟩
    rintro k _ dg _ hdg hdg' i
    obtain rfl := Option.some.inj (hdg.symm.trans hdg')
    exact .inr rfl

/-- The products that PMU `j` stores for integer polar phasors do not tell two frames apart. -/
def StaleProductsAgree (self : Client F) (t t' : Temps F) (m m' : ℕ → UInt8) (j : ℕ) : Prop :=
  ∀ c, self.configuration[j]? = some c → c.layout.IntegerPolar →
    ∀ k < c.layout.phasors, ∀ ph, c.phasor[k]? = some ph →
      staleProduct (self.staleFloats m t j) ph.conversionFactor =
        staleProduct (self.staleFloats m' t' j) ph.conversionFactor

theorem block_outside {self : Client F} {m m' : ℕ → UInt8} {i j q : ℕ} (hj : j ≠ i)
    (before : SameBytes m m' 0 (self.blockBase i))
    (behind : SameBytes m m' (self.blockBase (i + 1)) q) (hq : self.blockBase (j + 1) ≤ q) :
    SameBytes m m' (self.blockBase j) (self.blockBase (j + 1)) := by
  rcases Nat.lt_or_gt_of_ne hj with lt | gt
  · exact before.mono (Nat.zero_le _) (blockBase_mono self lt)
  · exact behind.mono (blockBase_mono self gt) hq

/-- Two accepted frames of the expected length that differ in the block of PMU `i` only
    give every other PMU the same sample exactly when the products of local floats that the
    integer polar ones store agree. -/
theorem other_samples_agree_iff {t t' : Temps F} {self s s' : Client F} {b b' : Memory} {n i : ℕ}
    (exactly : self.ArraysMatch) (expected : n = self.expectedSize)
    (before : SameBytes b.byte b'.byte 0 (self.blockBase i))
    (behind : SameBytes b.byte b'.byte (self.blockBase (i + 1)) (n - 2))
    (run : parseDataFrame t self b n = some (0, s))
    (run' : parseDataFrame t' self b' n = some (0, s')) :
    (∀ j < self.numPmu.toNat, j ≠ i → s.configuration[j]?.map Configuration.sample =
      s'.configuration[j]?.map Configuration.sample) ↔
    ∀ j < self.numPmu.toNat, j ≠ i → StaleProductsAgree self t t' b.byte b'.byte j := by
  have size := expectedSize_eq self
  obtain ⟨_, _, _, _, _, _, rfl⟩ := parseDataFrame_accepted run
  obtain ⟨_, _, _, _, _, _, rfl⟩ := parseDataFrame_accepted run'
  refine forall_congr' (fun j => forall_congr' (fun hj => forall_congr' (fun ne => ?_)))
  obtain ⟨c, hc, counts⟩ := exactly.get hj
  have inside := counts.countsInside
  have ends : self.blockBase (j + 1) ≤ n - 2 := by
    have last : self.blockBase (j + 1) ≤ self.blockBase self.numPmu.toNat := blockBase_mono self hj
    unfold Client.dataEnd at size
    omega
  have bytes := block_outside ne before behind ends
  rw [storeData_sample_eq_iff hj hj hc hc (SameRecord.refl c) inside inside rfl
    (fun k hk hk' => (bytes k hk hk').symm) t t', blockAgrees_self_iff]
  constructor
  · rintro agrees d hd
    obtain rfl := Option.some.inj (hc.symm.trans hd)
    exact agrees
  · intro agrees
    exact agrees c hc

theorem blockAt_fNom (c : Configuration F) (m : ℕ → UInt8) (t : Temps F) (p : ℕ) :
    (blockAt c m t p).fNom = c.fNom := by
  simp [blockAt]

theorem storeData_sameInstalled (self : Client F) (t : Temps F) (m : ℕ → UInt8) :
    SameInstalled self (self.storeData t m) := by
  refine ⟨rfl, rfl, rfl, ?_⟩
  intro i hi c c' hc hc'
  rw [storeData_get hi hc] at hc'
  cases hc'
  refine ⟨(layout_blockAt c m _ _).symm, (blockAt_fNom c m _ _).symm, fun k _ => ?_,
    fun k _ => ?_⟩
  · rw [blockAt_phasors, ← List.getElem?_map, ← List.getElem?_map,
      sweep_map_of_keep _ _ (fun k ph => (phasorAt_keeps _ _ _ _ ph).2.2)]
  · rw [blockAt_analogs, ← List.getElem?_map, ← List.getElem?_map,
      sweep_map_of_keep _ _ (fun k an => (analogAt_keeps _ _ _ an).2.2)]

section
attribute [local instance] ExactRational.platform

def triggeredFrame : Memory :=
  Memory.zeroFilled BUFER_LENGTH (appendChk
    ([0xAA, 0x01, 0x00, 0x30, 0x00, 0x07, 0, 0, 0, 1, 0, 0, 0, 0] ++
      [0x08, 0x00, 0x3F, 0x80, 0x00, 0x00, 0x40, 0x00, 0x00, 0x00, 0x42, 0x48, 0x00, 0x00,
        0, 0, 0, 0, 0x01, 0x02, 0x00, 0x05] ++
      [0x20, 0x00, 0x10, 0x00, 0x20, 0x00, 0x00, 0x01, 0x00, 0x02]))

def triggeredClient : Client ℚ := mixedClient.storeData ⟨0, 0⟩ triggeredFrame.byte

theorem mixedClient_arraysMatch : mixedClient.ArraysMatch := by decide +kernel

theorem mixedClient_expects_48 : mixedClient.expectedSize = 48 := by decide +kernel

theorem accepts_of_passes {self : Client ℚ} {l : List UInt8} (exactly : self.ArraysMatch)
    (size : self.dataEnd = 46)
    (pass : FramePasses 0x01 self.idcode (Memory.zeroFilled BUFER_LENGTH l).byte 48) :
    parseDataFrame ⟨0, 0⟩ self (Memory.zeroFilled BUFER_LENGTH l) (48 : ℕ) =
      some (0, self.storeData ⟨0, 0⟩ (Memory.zeroFilled BUFER_LENGTH l).byte) :=
  parseDataFrame_zeroFilled _ exactly (by rw [size]; decide) (by decide) (by decide) pass

theorem mixedClient_reads_mixedFrame : parseDataFrame ⟨0, 0⟩ mixedClient mixedFrame (48 : ℕ) =
    some (0, mixedClient.storeData ⟨0, 0⟩ mixedFrame.byte) :=
  accepts_of_passes mixedClient_arraysMatch (by decide +kernel) (by decide +kernel)

theorem mixedClient_reads_triggeredFrame :
    parseDataFrame ⟨0, 0⟩ mixedClient triggeredFrame (48 : ℕ) = some (0, triggeredClient) :=
  accepts_of_passes mixedClient_arraysMatch (by decide +kernel) (by decide +kernel)

theorem triggeredClient_reads_mixedFrame :
    parseDataFrame ⟨0, 0⟩ triggeredClient mixedFrame (48 : ℕ) =
      some (0, triggeredClient.storeData ⟨0, 0⟩ mixedFrame.byte) :=
  accepts_of_passes (storeData_arraysMatch mixedClient_arraysMatch _ _) (by decide +kernel)
    (by decide +kernel)

def Sample.triggers (s : Sample ℚ) : List Bool := s.pmus.map PmuSample.pmuIsTriggered

theorem triggers_differ :
    (mixedClient.storeData ⟨0, 0⟩ mixedFrame.byte).sample ≠
      (triggeredClient.storeData ⟨0, 0⟩ mixedFrame.byte).sample := by
  intro same
  have flags := congrArg Sample.triggers same
  exact absurd flags (by decide +kernel)

/-- A trigger flag that one frame raises is still up after the next one has lowered it. -/
theorem raised_flag_stays :
    parseDataFrame ⟨0, 0⟩ mixedClient triggeredFrame (48 : ℕ) = some (0, triggeredClient) ∧
      SameInstalled mixedClient triggeredClient ∧
      parseDataFrame ⟨0, 0⟩ mixedClient mixedFrame (48 : ℕ) =
        some (0, mixedClient.storeData ⟨0, 0⟩ mixedFrame.byte) ∧
      parseDataFrame ⟨0, 0⟩ triggeredClient mixedFrame (48 : ℕ) =
        some (0, triggeredClient.storeData ⟨0, 0⟩ mixedFrame.byte) ∧
      (mixedClient.storeData ⟨0, 0⟩ mixedFrame.byte).sample ≠
        (triggeredClient.storeData ⟨0, 0⟩ mixedFrame.byte).sample :=
  ⟨mixedClient_reads_triggeredFrame, storeData_sameInstalled _ _ _, mixedClient_reads_mixedFrame,
    triggeredClient_reads_mixedFrame, triggers_differ⟩

theorem triggered_history_disagrees :
    ¬ HistoryAgrees ⟨0, 0⟩ ⟨0, 0⟩ mixedClient triggeredClient mixedFrame.byte := by
  intro agrees
  exact triggers_differ ((samples_agree_iff (storeData_sameInstalled _ _ _)
    mixedClient_reads_mixedFrame triggeredClient_reads_mixedFrame).2 agrees)

def turnedFrame : Memory :=
  Memory.zeroFilled BUFER_LENGTH (appendChk
    ([0xAA, 0x01, 0x00, 0x30, 0x00, 0x07, 0, 0, 0, 1, 0, 0, 0, 0] ++
      [0x00, 0x00, 0x3F, 0x80, 0x00, 0x00, 0x3F, 0x80, 0x00, 0x00, 0x42, 0x48, 0x00, 0x00,
        0, 0, 0, 0, 0x01, 0x02, 0x00, 0x05] ++
      [0x20, 0x00, 0x10, 0x00, 0x20, 0x00, 0x00, 0x01, 0x00, 0x02]))

theorem mixedClient_reads_turnedFrame : parseDataFrame ⟨0, 0⟩ mixedClient turnedFrame (48 : ℕ) =
    some (0, mixedClient.storeData ⟨0, 0⟩ turnedFrame.byte) :=
  accepts_of_passes mixedClient_arraysMatch (by decide +kernel) (by decide +kernel)

theorem turnedFrame_outside :
    SameBytes mixedFrame.byte turnedFrame.byte 0 (mixedClient.blockBase 0) ∧
      SameBytes mixedFrame.byte turnedFrame.byte (mixedClient.blockBase (0 + 1)) (48 - 2) := by
  have first : mixedClient.blockBase 0 = 14 := rfl
  have second : mixedClient.blockBase (0 + 1) = 36 := by decide +kernel
  have before : ∀ k < 14, mixedFrame.byte k = turnedFrame.byte k := by decide +kernel
  have behind : ∀ k < 46, 36 ≤ k → mixedFrame.byte k = turnedFrame.byte k := by decide +kernel
  rw [first, second]
  exact ⟨fun k _ hk => before k hk, fun k hk hk' => behind k hk' hk⟩

theorem angles_differ :
    (mixedClient.storeData ⟨0, 0⟩ mixedFrame.byte).configuration[1]?.map Configuration.sample ≠
      (mixedClient.storeData ⟨0, 0⟩ turnedFrame.byte).configuration[1]?.map
        Configuration.sample := by
  intro same
  have phasors := congrArg (Option.map PmuSample.phasor) same
  exact absurd phasors (by decide +kernel)

/-- The angle of the first PMU's phasor comes out as the angle of the second PMU's. -/
theorem angle_leaks_to_the_next_pmu :
    mixedClient.ArraysMatch ∧ 48 = mixedClient.expectedSize ∧
      SameBytes mixedFrame.byte turnedFrame.byte 0 (mixedClient.blockBase 0) ∧
      SameBytes mixedFrame.byte turnedFrame.byte (mixedClient.blockBase (0 + 1)) (48 - 2) ∧
      parseDataFrame ⟨0, 0⟩ mixedClient mixedFrame (48 : ℕ) =
        some (0, mixedClient.storeData ⟨0, 0⟩ mixedFrame.byte) ∧
      parseDataFrame ⟨0, 0⟩ mixedClient turnedFrame (48 : ℕ) =
        some (0, mixedClient.storeData ⟨0, 0⟩ turnedFrame.byte) ∧
      (mixedClient.storeData ⟨0, 0⟩ mixedFrame.byte).configuration[1]?.map
          Configuration.sample ≠
        (mixedClient.storeData ⟨0, 0⟩ turnedFrame.byte).configuration[1]?.map
          Configuration.sample :=
  ⟨mixedClient_arraysMatch, mixedClient_expects_48.symm, turnedFrame_outside.1,
    turnedFrame_outside.2, mixedClient_reads_mixedFrame, mixedClient_reads_turnedFrame,
    angles_differ⟩

theorem turned_products_disagree :
    ¬ (∀ j < mixedClient.numPmu.toNat, j ≠ 0 →
      StaleProductsAgree mixedClient ⟨0, 0⟩ ⟨0, 0⟩ mixedFrame.byte turnedFrame.byte j) := by
  intro agree
  exact angles_differ ((other_samples_agree_iff mixedClient_arraysMatch
    mixedClient_expects_48.symm turnedFrame_outside.1 turnedFrame_outside.2
    mixedClient_reads_mixedFrame mixedClient_reads_turnedFrame).2 agree 1 (by decide) (by decide))

end
end Khorjin
