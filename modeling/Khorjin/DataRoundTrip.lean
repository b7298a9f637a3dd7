import Khorjin.ArrayInvariant
import Khorjin.DataEncoding

set_option autoImplicit false

/-!
# What the client makes of a sent data frame

The data parser on the level of the values that are sent: `receive` says what a
frame does to a client, without its bytes. The parser refines it.
-/
namespace Khorjin
open ByteMemory LoopRules
variable {F D : Type} [Platform F D]

namespace Word

def float : {floating : Bool} → Word floating → F
  | true, w => FloatArith.ofBits w
  | false, w => floatOfWord w

end Word

def Phasor.receive (polar : Bool) (t : Temps F) :
    {floating : Bool} → Phasor F → Word floating × Word floating → Phasor F
  | true, ph, w =>
    if polar then { ph with magnitude := w.1.float, angle := w.2.float }
    else { ph with
      magnitude := FloatArith.narrow (magnitudeOf w.1.float (w.2.float : F))
      angle := angleOf w.1.float w.2.float }
  | false, ph, w =>
    -- the words of an integer phasor in polar form are not used
    if polar then { ph with
      magnitude := FloatArith.mul t.tempFloat_1 ph.conversionFactor
      angle := FloatArith.mul t.tempFloat_2 ph.conversionFactor }
    else { ph with
      magnitude := FloatArith.narrow (FloatArith.mulD F (magnitudeOf w.1.float (w.2.float : F))
        (FloatArith.widen ph.conversionFactor))
      angle := angleOf w.1.float w.2.float }

def Analog.receive : {floating : Bool} → Analog F → Word floating → Analog F
  | true, an, w => { an with value := w.float }
  | false, an, w => { an with value := FloatArith.mul w.float an.conversionFactor }

/-- `rocof` as the frame sends it, in hundredths. -/
def hundredth (x : F) : F :=
  FloatArith.narrow (FloatArith.mulD F (FloatArith.widen x) (FloatArith.const F (1 / 100)))

/-- Both words of an integer format go into the frequency, the second one last. -/
def receivedFrequency : {floating : Bool} → Word floating × Word floating → F
  | true, w => w.1.float
  | false, w => hundredth w.2.float

def receivedRocof (old : F) : {floating : Bool} → Word floating × Word floating → F
  | true, w => hundredth w.2.float
  | false, _ => old

def Configuration.receive (c : Configuration F) (s : SentPmu) (t : Temps F) : Configuration F :=
  (((((c.storeSTAT s.stat).setPhasor
    (List.zipWith (Phasor.receive s.layout.phasorIsPolar t) c.phasor s.phasors.toList)).setFrequency
      (receivedFrequency (s.freq, s.dfreq))).setRocof
        (receivedRocof c.rocof (s.freq, s.dfreq))).setAnalog
          (List.zipWith Analog.receive c.analog s.analogs.toList)).setDigital
            (List.zipWith Digital.storeWord c.digital s.digitals.toList)

theorem phasorAt_eq (l : Layout) (m : ℕ → UInt8) (t : Temps F) (p : ℕ) (ph : Phasor F) :
    phasorAt l m t p ph = ph.receive l.phasorIsPolar t
      (Word.readAt m p l.phasorIsFloatingPoint,
        Word.readAt m (p + Word.width l.phasorIsFloatingPoint) l.phasorIsFloatingPoint) := by
  obtain ⟨float, polar, _⟩ := l
  cases float <;> cases polar <;> rfl

theorem frequencyAt_eq (l : Layout) (m : ℕ → UInt8) (p : ℕ) :
    (frequencyAt l m p : F) = receivedFrequency
      (Word.readAt m p l.freqIsFloatingPoint,
        Word.readAt m (p + Word.width l.freqIsFloatingPoint) l.freqIsFloatingPoint) := by
  obtain ⟨_, _, float, _⟩ := l
  cases float <;> rfl

theorem rocofAt_eq (l : Layout) (m : ℕ → UInt8) (old : F) (p : ℕ) :
    rocofAt l m old p = receivedRocof old
      (Word.readAt m p l.freqIsFloatingPoint,
        Word.readAt m (p + Word.width l.freqIsFloatingPoint) l.freqIsFloatingPoint) := by
  obtain ⟨_, _, float, _⟩ := l
  cases float <;> rfl

theorem analogAt_eq (l : Layout) (m : ℕ → UInt8) (p : ℕ) (an : Analog F) :
    analogAt l m p an = an.receive (Word.readAt m p l.analogIsFloatingPoint) := by
  obtain ⟨_, _, _, float, _⟩ := l
  cases float <;> rfl

theorem phasorWidth_eq (l : Layout) : l.phasorWidth = 2 * Word.width l.phasorIsFloatingPoint := by
  unfold Word.width Layout.phasorWidth
  split_ifs <;> rfl

theorem blockAt_of_holds {c : Configuration F} {s : SentPmu} {m : ℕ → UInt8} {p : ℕ}
    (exactly : c.ArraysMatch) (layout : c.layout = s.layout) (h : Holds m p s.encode)
    (t : Temps F) : blockAt c m t p = c.receive s t := by
  obtain ⟨stat, phasors, freq, analogs, digitals⟩ := sent_parts h
  obtain ⟨phasorCount, analogCount, digitalCount⟩ := exactly
  have phasorCount : c.phasor.length = s.layout.phasors :=
    phasorCount.trans (congrArg Layout.phasors layout)
  have analogCount : c.analog.length = s.layout.analogs :=
    analogCount.trans (congrArg Layout.analogs layout)
  have digitalCount : c.digital.length = s.layout.digitals :=
    digitalCount.trans (congrArg Layout.digitals layout)
  have phasor : sweep (fun k => phasorAt s.layout m t (p + 2 + s.layout.phasorWidth * k))
      s.layout.phasors c.phasor =
      List.zipWith (Phasor.receive s.layout.phasorIsPolar t) c.phasor s.phasors.toList := by
    apply sweep_eq_zipWith _ phasorCount (by simp)
    intro j ph w hw
    have slot := Word.readPair_of_holds
      (holds_slot Word.encodePair Word.encodePair_length phasors hw)
    rw [phasorAt_eq, phasorWidth_eq, slot]
  have analog : sweep (fun k => analogAt s.layout m
      (p + s.layout.analogOffset + s.layout.analogWidth * k)) s.layout.analogs c.analog =
      List.zipWith Analog.receive c.analog s.analogs.toList := by
    apply sweep_eq_zipWith _ analogCount (by simp)
    intro j an w hw
    have slot := Word.readAt_of_holds (holds_slot Word.encode Word.encode_length analogs hw)
    rw [analogAt_eq, ← slot]
    rfl
  have digital : sweep (fun k dg => dg.storeWord (word16 m (p + s.layout.digitalOffset + 2 * k)))
      s.layout.digitals c.digital =
      List.zipWith Digital.storeWord c.digital s.digitals.toList := by
    apply sweep_eq_zipWith _ digitalCount (by simp)
    intro j dg w hw
    rw [word16_of_holds (holds_slot encode16 encode16_length digitals hw)]
  simp only [blockAt, layout, phasor, analog, digital, stat, frequencyAt_eq, rocofAt_eq, freq]
  rfl

def Temps.readPair (t : Temps F) : {floating : Bool} → Word floating × Word floating → Temps F
  | true, w => ⟨w.1.float, w.2.float⟩
  | false, _ => t

def Temps.readOne (t : Temps F) : {floating : Bool} → Word floating → Temps F
  | true, w => { t with tempFloat_1 := w.float }
  | false, _ => t

/-- The local floats behind the values of one PMU: what was last read into them. -/
def Temps.behind (t : Temps F) (s : SentPmu) : Temps F :=
  let t := s.phasors.toList.getLast?.elim t t.readPair
  let t := t.readOne s.dfreq
  s.analogs.toList.getLast?.elim t t.readOne

theorem phasorTemps_of_holds {m : ℕ → UInt8} {p : ℕ} {floating : Bool}
    {ws : List (Word floating × Word floating)} {l : Layout}
    (format : l.phasorIsFloatingPoint = floating) (h : Holds m p (ws.flatMap Word.encodePair))
    (t : Temps F) : phasorTemps l m t p ws.length = ws.getLast?.elim t t.readPair := by
  rcases List.eq_nil_or_concat ws with rfl | ⟨ws, w, rfl⟩
  · rfl
  · rw [List.concat_eq_append] at h ⊢
    have last : (ws ++ [w])[ws.length]? = some w := by simp
    have slot := Word.readPair_of_holds
      (holds_slot Word.encodePair Word.encodePair_length h last)
    rw [List.length_append, List.length_singleton, List.getLast?_concat, Option.elim_some,
      phasorTemps, format]
    cases floating with
    | true =>
      rw [← slot]
      rfl
    | false => rfl

theorem analogTemps_of_holds {m : ℕ → UInt8} {p : ℕ} {floating : Bool}
    {ws : List (Word floating)} {l : Layout} (format : l.analogIsFloatingPoint = floating)
    (h : Holds m p (ws.flatMap Word.encode)) (t : Temps F) :
    analogTemps l m t p ws.length = ws.getLast?.elim t t.readOne := by
  rcases List.eq_nil_or_concat ws with rfl | ⟨ws, w, rfl⟩
  · rfl
  · rw [List.concat_eq_append] at h ⊢
    have last : (ws ++ [w])[ws.length]? = some w := by simp
    have slot := Word.readAt_of_holds (holds_slot Word.encode Word.encode_length h last)
    rw [List.length_append, List.length_singleton, List.getLast?_concat, Option.elim_some,
      analogTemps, format]
    cases floating with
    | true =>
      rw [← slot]
      rfl
    | false => rfl

theorem freqTemps_of_holds {m : ℕ → UInt8} {p : ℕ} {l : Layout}
    {w : Word l.freqIsFloatingPoint × Word l.freqIsFloatingPoint}
    (h : (Word.readAt m p l.freqIsFloatingPoint,
      Word.readAt m (p + Word.width l.freqIsFloatingPoint) l.freqIsFloatingPoint) = w)
    (t : Temps F) : freqTemps l m t p = t.readOne w.2 := by
  rw [← h]
  obtain ⟨_, _, float, _⟩ := l
  cases float <;> rfl

theorem blockTemps_of_holds {s : SentPmu} {m : ℕ → UInt8} {p : ℕ} (h : Holds m p s.encode)
    (t : Temps F) : blockTemps s.layout m t p = t.behind s := by
  obtain ⟨_, phasors, freq, analogs, _⟩ := sent_parts h
  have phasor := phasorTemps_of_holds rfl phasors t
  have analog := analogTemps_of_holds (l := s.layout) rfl analogs
    (freqTemps s.layout m (phasorTemps s.layout m t (p + 2) s.layout.phasors)
      (p + s.layout.freqOffset))
  rw [List.Vector.toList_length] at phasor analog
  rw [blockTemps, analog, freqTemps_of_holds freq, phasor]
  rfl

def receivePmus : List (Configuration F) → List SentPmu → Temps F → List (Configuration F)
  | c :: cs, s :: ss, t => c.receive s t :: receivePmus cs ss (t.behind s)
  | cs, _, _ => cs

/-- The eight bytes of the time, by their parts. -/
def Time.receive (timeStamp : Time F) (timeBase soc : UInt32) (timeQuality : UInt8)
    (fracsec : UInt32) : Time F :=
  let parsedTime : ParsedTime F := convertEpochToCalendar soc
  let fraction := setFraction timeStamp soc fracsec timeBase
  { parsedTime := some { parsedTime with
      secPlusFraction :=
        FloatArith.add (FloatArith.ofInt parsedTime.second) fraction.fractionOfSecond }
    timeValueInMs := fraction.timeValueInMs
    secondOfCenctury := soc
    fractionOfSecond := fraction.fractionOfSecond
    quality := parseTimeQuality timeStamp.quality timeQuality }

def Client.receive (self : Client F) (f : SentData) (t : Temps F) : Client F :=
  { self with
    dataTimeStamp := self.dataTimeStamp.receive self.timeBase f.soc f.timeQuality f.fracsec
    configuration := receivePmus self.configuration f.pmus t }

theorem blockOffset_cons (l : Layout) (ls : List Layout) (p i : ℕ) :
    p + blockOffset (l :: ls) (i + 1) = p + l.blockSize + blockOffset ls i := by
  simp only [blockOffset, List.take_succ_cons, List.map_cons, List.sum_cons]
  omega

theorem tempsBefore_cons (l : Layout) (ls : List Layout) (m : ℕ → UInt8) (t : Temps F) (p i : ℕ) :
    tempsBefore (l :: ls) m t p (i + 1) =
      tempsBefore ls m (blockTemps l m t p) (p + l.blockSize) i := by
  induction i with
  | zero => rfl
  | succ i ih =>
    rw [tempsBefore, ih, List.getElem?_cons_succ, blockOffset_cons]
    rfl

theorem pmus_of_holds {cs : List (Configuration F)} {ss : List SentPmu} {m : ℕ → UInt8} {p : ℕ}
    (exactly : ∀ c ∈ cs, c.ArraysMatch)
    (layouts : cs.map Configuration.layout = ss.map SentPmu.layout)
    (h : Holds m p (ss.flatMap SentPmu.encode)) (t : Temps F) :
    (pmusAfter cs m t p cs.length).configuration = receivePmus cs ss t := by
  induction cs generalizing ss p t with
  | nil =>
    cases ss with
    | nil => rfl
    | cons s ss => simp at layouts
  | cons c cs ih =>
    cases ss with
    | nil => simp at layouts
    | cons s ss =>
      rw [List.map_cons, List.map_cons, List.cons.injEq] at layouts
      rw [List.flatMap_cons, holds_append_iff, SentPmu.encode_length] at h
      have first := blockAt_of_holds (exactly c List.mem_cons_self) layouts.1 h.1 t
      have rest := ih (fun c hc => exactly c (List.mem_cons_of_mem _ hc)) layouts.2 h.2
        (t.behind s)
      rw [receivePmus, ← first, ← rest]
      simp only [pmusAfter, List.length_cons, List.map_cons, sweep_cons, tempsBefore_cons,
        blockOffset_cons, layouts.1, blockTemps_of_holds h.1]
      rfl

theorem timeAt_of_words {m : ℕ → UInt8} {p : ℕ} {soc fracsec : UInt32} {timeQuality : UInt8}
    (hsoc : word32 m p = soc) (hquality : m (p + 4) = timeQuality)
    (hfracsec : word24 m (p + 5) = fracsec) (timeStamp : Time F) (timeBase : UInt32) :
    timeAt timeStamp timeBase m p = timeStamp.receive timeBase soc timeQuality fracsec := by
  rw [← hsoc, ← hquality, ← hfracsec]
  rfl

theorem sent_head {m : ℕ → UInt8} {f : SentData} (h : Holds m 0 f.encodeHead) :
    m 0 = 0xAA ∧ m 1 = 0x01 ∧ word16 m 2 = UInt16.ofNat f.size ∧ word16 m 4 = f.idcode ∧
      word32 m 6 = f.soc ∧ m 10 = f.timeQuality ∧ word24 m 11 = f.fracsec := by
  simp only [SentData.encodeHead, holds_append_iff, List.length_append, encode16_length,
    encode32_length, and_assoc] at h
  obtain ⟨sync, size, idcode, soc, quality, fracsec⟩ := h
  exact ⟨sync 0 _ rfl, sync 1 _ rfl, word16_of_holds size, word16_of_holds idcode,
    word32_of_holds soc, quality 0 _ rfl, word24_of_encode24 fracsec f.fracsec_lt⟩

theorem sent_passes {m : ℕ → UInt8} {f : SentData} (h : Holds m 0 f.encode)
    (lt : f.size < 2 ^ 16) : FramePasses 0x01 f.idcode m f.size := by
  obtain ⟨body, chk⟩ := appendChk_of_holds h
  rw [SentData.encodeBody_length] at chk
  obtain ⟨h0, h1, size, idcode, _⟩ := sent_head ((holds_append_iff _ _ _ _).1 body).1
  refine ⟨chk, h0, h1, ?_, idcode⟩
  rw [size]
  exact Nat.mod_eq_of_lt lt

/-- The client is configured for the frame. -/
structure SentData.Fits (f : SentData) (installed : Client F) : Prop where
  idcode : f.idcode = installed.idcode
  arrays : installed.ArraysMatch
  layouts : installed.layouts = f.pmus.map SentPmu.layout

theorem storeData_of_holds {self : Client F} {f : SentData} {m : ℕ → UInt8} (fits : f.Fits self)
    (h : Holds m 0 f.encode) (t : Temps F) : self.storeData t m = self.receive f t := by
  obtain ⟨body, _⟩ := appendChk_of_holds h
  obtain ⟨head, pmus⟩ := (holds_append_iff _ _ _ _).1 body
  obtain ⟨_, _, _, _, soc, quality, fracsec⟩ := sent_head head
  rw [Nat.zero_add, SentData.encodeHead_length] at pmus
  have configuration := pmus_of_holds fits.arrays.2 fits.layouts pmus t
  rw [fits.arrays.1] at configuration
  rw [Client.storeData, Client.receive, ← configuration, timeAt_of_words soc quality fracsec]
  rfl

theorem dataEnd_of_fits {self : Client F} {f : SentData} (fits : f.Fits self) :
    self.dataEnd + 2 = f.size := by
  have sizes : self.layouts.map Layout.blockSize =
      f.pmus.map (fun s => s.encode.length) := by
    rw [fits.layouts, List.map_map]
    exact List.map_congr_left (fun s _ => (s.encode_length).symm)
  have all : self.layouts.length = self.numPmu.toNat := by
    rw [Client.layouts, List.length_map, fits.arrays.1]
  rw [Client.dataEnd, Client.blockBase, blockOffset, ← all, List.take_length, sizes, SentData.size,
    List.length_flatMap]
  omega

end Khorjin
