import Khorjin.ChannelHelpers
import Khorjin.FlatOutput
import Khorjin.InstalledRecords
import Khorjin.SentFrames

set_option autoImplicit false

/-!
# A session from one end to the other

A PMU or PDC answers with its configuration and then sends data frames. What the
calls of the client hand out is what the other side has put into these frames.
-/
namespace Khorjin
open ByteMemory LoopRules RunRules
variable {F D : Type} [Platform F D]

/-- The frame has the format that the configuration announces. -/
structure SentData.MadeFor (x : SentData) (f : Cfg2) : Prop where
  idcode : x.idcode = f.idcode
  layouts : x.pmus.map SentPmu.layout = f.records.map PmuRecord.layout

theorem Cfg2.two_le (f : Cfg2) : 2 ≤ f.encode.length := by
  rw [encode_length, Cfg2.size]
  omega

theorem Cfg2.length_le {f : Cfg2} (fits : f.size ≤ BUFER_LENGTH) :
    f.encode.length ≤ BUFER_LENGTH := by
  rw [encode_length]
  exact fits

def Cfg2.event (f : Cfg2) (fits : f.size ≤ BUFER_LENGTH) : Event F :=
  .configurationFrame (.ofBytes f.encode f.two_le (Cfg2.length_le fits))

theorem Configuration.Carries.of_installed {c c' : Configuration F} {r : PmuRecord}
    (carries : c.Carries r) (same : c'.installed = c.installed) : c'.Carries r := by
  have phasor : c'.phasor.map Phasor.installed = c.phasor.map Phasor.installed :=
    congrArg InstalledPmu.phasor same
  have analog : c'.analog.map Analog.installed = c.analog.map Analog.installed :=
    congrArg InstalledPmu.analog same
  have digital : c'.digital.map Digital.installed = c.digital.map Digital.installed :=
    congrArg InstalledPmu.digital same
  constructor
  case stationName => exact (congrArg InstalledPmu.stationName same).trans carries.stationName
  case pmuIdcode => exact (congrArg InstalledPmu.pmuIdcode same).trans carries.pmuIdcode
  case layout => exact (congrArg InstalledPmu.layout same).trans carries.layout
  case phasorNames => exact (map_of_map_eq phasor Prod.fst).trans carries.phasorNames
  case phasorTypes => exact (map_of_map_eq phasor (fun x => x.2.1)).trans carries.phasorTypes
  case phasorFactors =>
    intro integer
    exact (map_of_map_eq phasor (fun x => x.2.2)).trans (carries.phasorFactors integer)
  case analogNames => exact (map_of_map_eq analog Prod.fst).trans carries.analogNames
  case analogTypes => exact (map_of_map_eq analog (fun x => x.2.1)).trans carries.analogTypes
  case digitalNames =>
    exact (map_of_map_eq digital (fun x k => (x.2.2 k).1)).trans carries.digitalNames
  case digitalMasks => exact (map_of_map_eq digital Prod.fst).trans carries.digitalMasks
  case digitalInputs => exact (map_of_map_eq digital (fun x => x.2.1)).trans carries.digitalInputs
  case digitalEnabled =>
    exact (map_of_map_eq digital (fun x k => (x.2.2 k).2)).trans carries.digitalEnabled
  case fNom => exact (congrArg InstalledPmu.fNom same).trans carries.fNom
  case cfgCnt => exact (congrArg InstalledPmu.cfgCnt same).trans carries.cfgCnt

theorem forall₂_of_installed {R : Configuration F → PmuRecord → Prop}
    (keep : ∀ c c' r, c'.installed = c.installed → R c r → R c' r) {cs cs' : List (Configuration F)}
    {rs : List PmuRecord} (h : List.Forall₂ R cs rs)
    (same : cs'.map Configuration.installed = cs.map Configuration.installed) :
    List.Forall₂ R cs' rs := by
  induction h generalizing cs' with
  | nil =>
    rw [List.map_eq_nil_iff.1 same]
    exact .nil
  | cons first _ ih =>
    cases cs' with
    | nil => simp at same
    | cons c' cs' =>
      rw [List.map_cons, List.map_cons, List.cons.injEq] at same
      exact .cons (keep _ _ _ same.1 first) (ih same.2)

theorem Client.Carries.of_installation {self self' : Client F} {f : Cfg2} (carries : self.Carries f)
    (same : self'.installation = self.installation) : self'.Carries f := by
  obtain ⟨count, timeBase, dataRate, records⟩ := carries
  have kept := forall₂_of_installed (fun _ _ _ same carries => carries.of_installed same) records
    (congrArg Installed.pmus same)
  refine ⟨?_, ?_, ?_, kept⟩
  · exact (congrArg (fun x => x.numPmu.toNat) same).trans count
  · exact (congrArg Installed.timeBase same).trans timeBase
  · exact (congrArg Installed.dataRate same).trans dataRate

theorem foldl_take_installation {self : Client F} {frames : List (Transmitted F)}
    (fits : ∀ x ∈ frames, x.frame.Fits self) :
    (frames.foldl Client.take self).installation = self.installation := by
  induction frames generalizing self with
  | nil => rfl
  | cons x frames ih =>
    have first := fits x List.mem_cons_self
    have later := ih (fun y hy => first.keep (fits y (List.mem_cons_of_mem _ hy)))
    have stored := storeData_of_holds first x.received_holds x.temps
    have one := storeData_installation self x.temps x.received.buffer.byte
    rw [stored] at one
    exact later.trans one

/-- What no data frame writes: the rate of change of an integer format, which `calloc` has
    cleared, and the factor of an analog channel. -/
structure Configuration.Unwritten (c : Configuration F) : Prop where
  rocof : c.freqIsFloatingPoint = false → c.rocof = zeroFloat
  analog : ∀ an ∈ c.analog, an.conversionFactor = FloatArith.ofInt 1

def Client.Unwritten (self : Client F) : Prop := ∀ c ∈ self.configuration, c.Unwritten

theorem recordAt_unwritten (first : Layout) (m : ℕ → UInt8) (p : ℕ) :
    (recordAt first m p : Configuration F).Unwritten := by
  refine ⟨fun _ => rfl, fun an han => ?_⟩
  have analogs : an ∈ analogsAt first m (p + 26 + 16 * first.phasors) :=
    (List.mem_ite_nil_right.1 han).2
  obtain ⟨j, _, rfl⟩ := List.mem_map.1 analogs
  rfl

theorem blockAt_unwritten {c : Configuration F} (unwritten : c.Unwritten) (m : ℕ → UInt8)
    (t : Temps F) (p : ℕ) : (blockAt c m t p).Unwritten := by
  have installed := blockAt_installed c m t p
  refine ⟨fun integer => ?_, fun an han => ?_⟩
  · have integer : c.layout.freqIsFloatingPoint = false :=
      (congrArg InstalledPmu.freqIsFloatingPoint installed).symm.trans integer
    have written : (blockAt c m t p).rocof =
        rocofAt c.layout m c.rocof (p + c.layout.freqOffset) := rfl
    rw [written, rocofAt, integer, if_neg Bool.false_ne_true, unwritten.rocof integer]
  · have analog : (blockAt c m t p).analog.map Analog.installed = c.analog.map Analog.installed :=
      congrArg InstalledPmu.analog installed
    have member : an.installed ∈ c.analog.map Analog.installed :=
      analog ▸ List.mem_map_of_mem han
    obtain ⟨before, hbefore, same⟩ := List.mem_map.1 member
    have factor : before.conversionFactor = an.conversionFactor := congrArg (fun x => x.2.2) same
    exact factor.symm.trans (unwritten.analog before hbefore)

theorem Client.Unwritten.store {self : Client F} (unwritten : self.Unwritten) {e : Event F}
    (data : e.isDataFrame) : (e.store self).Unwritten := by
  cases e with
  | configurationFrame x => cases data
  | dataFrame x temps =>
    exact storeData_forall unwritten temps _ (fun c t p before => blockAt_unwritten before _ t p)

theorem foldl_take_unwritten {self : Client F} {frames : List (Transmitted F)}
    (fits : ∀ x ∈ frames, x.frame.Fits self) (unwritten : self.Unwritten) :
    (frames.foldl Client.take self).Unwritten := by
  induction frames generalizing self with
  | nil => exact unwritten
  | cons x frames ih =>
    have first := fits x List.mem_cons_self
    have stored : (self.take x).Unwritten := by
      rw [Client.take, ← storeData_of_holds first x.received_holds x.temps]
      exact unwritten.store (e := x.event) rfl
    exact ih (fun y hy => first.keep (fits y (List.mem_cons_of_mem _ hy))) stored

theorem Client.Carries.arraysMatch {self : Client F} {f : Cfg2} (carries : self.Carries f) :
    self.ArraysMatch := by
  obtain ⟨count, _, _, records⟩ := carries
  refine ⟨records.length_eq.trans count.symm, fun c hc => ?_⟩
  obtain ⟨i, hi⟩ := List.mem_iff_get.1 hc
  have hr := records.get i.isLt (records.length_eq ▸ i.isLt)
  exact hi ▸ hr.arraysMatch

theorem Client.Carries.layouts {self : Client F} {f : Cfg2} (carries : self.Carries f) :
    self.layouts = f.records.map PmuRecord.layout := by
  have same : List.Forall₂ (· = ·) (self.configuration.map Configuration.layout)
      (f.records.map PmuRecord.layout) := by
    rw [List.forall₂_map_left_iff, List.forall₂_map_right_iff]
    exact carries.2.2.2.imp (fun c r h => h.layout)
  rwa [List.forall₂_eq_eq_eq] at same

theorem SentData.MadeFor.fits {x : SentData} {f : Cfg2} {self : Client F} (made : x.MadeFor f)
    (known : self.idcode = f.idcode) (carries : self.Carries f) : x.Fits self :=
  ⟨made.idcode.trans known.symm, carries.arraysMatch, carries.layouts.trans made.layouts.symm⟩

theorem handle_configuration {self : Client F} {f : Cfg2} (known : self.idcode = f.idcode)
    (fits : f.size ≤ BUFER_LENGTH) (uniform : f.Uniform) :
    ∃ installed, handle self (f.event fits) = some (0, installed) ∧ installed.Carries f ∧
      installed.Unwritten ∧ installed.configTimeStamp.parsedTime.isSome ∧
        installed.dataTimeStamp = self.dataTimeStamp := by
  obtain ⟨installed, run, carries⟩ := roundTrips_of_uniform (F := F) fits uniform self known
  have step : handle self (f.event fits) = some (0, installed) := by
    rw [← encode_length f] at run
    exact run
  refine ⟨installed, step, carries, ?_⟩
  rcases handle_cases step with ⟨_, _, _, rfl⟩ | ⟨h, _⟩
  · refine ⟨fun c hc => ?_, rfl, rfl⟩
    obtain ⟨i, _, rfl⟩ := List.mem_map.1 hc
    exact recordAt_unwritten _ _ _
  · simp at h

/-- For PMU `i`, whose record is `r` and which has sent `s`. The values of integer formats are
    what the client makes of them: their frequency is the second word, their rate of change is
    never written, and a phasor in polar form is two local floats and not its words. -/
structure HandsOut (client : Client F) (conf : PmuArrays F) (out : OutputBuffers F) (i : ℕ)
    (r : PmuRecord) (s : SentPmu) : Prop where
  stationName : getConf_pmu_stationName client i = some r.stationName.toList
  numPhasors : (conf.numPhasors i).toNat = r.phasors.length
  numAnalog : (conf.numAnalog i).toNat = r.analogs.length
  numdigital : (conf.numdigital i).toNat = r.digitals.length
  freqNom : conf.freqNom i = FloatArith.ofInt (if r.fnom &&& 0x1 = 0 then 60 else 50)
  configCount : conf.configCount i = r.cfgcnt
  idCode : conf.idCode i = r.idCode
  channelName : ∀ j ch, r.phasors[j]? = some ch →
    getConf_pmu_channelName client i j = some (ch.name.toList, if ch.isVoltage then 0 else 1)
  analogs : ∀ j ch, r.analogs[j]? = some ch →
    getConf_pmu_analogs client i j = some (ch.name.toList, ch.analogType.toNat)
  polar : s.layout.phasorIsFloatingPoint → s.layout.phasorIsPolar →
    ∀ j w, s.phasors.toList[j]? = some w →
      out.phasorsMagBuffer (conf.phasorStart i + j) = w.1.float ∧
        out.phasorsAngBuffer (conf.phasorStart i + j) = w.2.float
  rectangular : s.layout.phasorIsFloatingPoint → ¬ s.layout.phasorIsPolar →
    ∀ j w, s.phasors.toList[j]? = some w →
      out.phasorsMagBuffer (conf.phasorStart i + j) =
          FloatArith.narrow (magnitudeOf w.1.float (w.2.float : F)) ∧
        out.phasorsAngBuffer (conf.phasorStart i + j) = angleOf w.1.float w.2.float
  integerPolar : ¬ s.layout.phasorIsFloatingPoint → s.layout.phasorIsPolar → ∃ t : Temps F,
    ∀ j ch, r.phasors[j]? = some ch →
      out.phasorsMagBuffer (conf.phasorStart i + j) =
          FloatArith.mul t.tempFloat_1 (scalePhunit ch.factor) ∧
        out.phasorsAngBuffer (conf.phasorStart i + j) =
          FloatArith.mul t.tempFloat_2 (scalePhunit ch.factor)
  integerRectangular : ¬ s.layout.phasorIsFloatingPoint → ¬ s.layout.phasorIsPolar →
    ∀ j ch w, r.phasors[j]? = some ch → s.phasors.toList[j]? = some w →
      out.phasorsMagBuffer (conf.phasorStart i + j) =
          FloatArith.narrow (FloatArith.mulD F (magnitudeOf w.1.float (w.2.float : F))
            (FloatArith.widen (scalePhunit ch.factor : F))) ∧
        out.phasorsAngBuffer (conf.phasorStart i + j) = angleOf w.1.float w.2.float
  frequency : s.layout.freqIsFloatingPoint → out.freqBuffer i = s.freq.float
  integerFrequency : ¬ s.layout.freqIsFloatingPoint → out.freqBuffer i = hundredth s.dfreq.float
  rocof : s.layout.freqIsFloatingPoint → out.rocofBuffer i = hundredth s.dfreq.float
  integerRocof : ¬ s.layout.freqIsFloatingPoint → out.rocofBuffer i = zeroFloat
  analog : s.layout.analogIsFloatingPoint → ∀ j w, s.analogs.toList[j]? = some w →
    out.analogBuffer (conf.analogStart i + j) = w.float
  -- the factor that was sent for the channel is not used
  integerAnalog : ¬ s.layout.analogIsFloatingPoint → ∀ j w, s.analogs.toList[j]? = some w →
    out.analogBuffer (conf.analogStart i + j) = FloatArith.mul w.float (FloatArith.ofInt 1)
  statWord : ∃ c, client.configuration[i]? = some c ∧ c.statWord = s.stat ∧
    c.digital.map Digital.digitalWord = s.digitals.toList

def calendarTime (soc : UInt32) (fractionOfSecond : F) : ParsedTime F :=
  let parsedTime : ParsedTime F := convertEpochToCalendar soc
  { parsedTime with
    secPlusFraction := FloatArith.add (FloatArith.ofInt parsedTime.second) fractionOfSecond }

/-- The calendar time of a sent frame. -/
def sentTime (timeBase soc fracsec : UInt32) : ParsedTime F :=
  calendarTime soc
    (FloatArith.div (FloatArith.ofInt fracsec.toNat) (FloatArith.ofInt timeBase.toNat))

theorem forall₂_get? {α β : Type} {R : α → β → Prop} {xs : List α} {ys : List β}
    (h : List.Forall₂ R xs ys) {i : ℕ} {x : α} {y : β} (hx : xs[i]? = some x)
    (hy : ys[i]? = some y) : R x y := by
  obtain ⟨hi, rfl⟩ := List.getElem?_eq_some_iff.1 hx
  obtain ⟨hi', rfl⟩ := List.getElem?_eq_some_iff.1 hy
  exact h.get hi hi'

theorem get?_of_map_eq {α β : Type} {g h : α → β} {xs : List α} (same : xs.map g = xs.map h) {i : ℕ}
    {x : α} (hx : xs[i]? = some x) : g x = h x :=
  List.map_inj_left.1 same x (List.mem_of_getElem? hx)

theorem get?_of_map_eq_zipWith {α β γ : Type} {g : α → γ} {h : α → β → γ} {xs : List α}
    {ys : List β} (same : xs.map g = List.zipWith h xs ys) {i : ℕ} {x : α} {y : β}
    (hx : xs[i]? = some x) (hy : ys[i]? = some y) : g x = h x y := by
  have entry := congrArg (fun l => l[i]?) same
  simpa [List.getElem?_zipWith, hx, hy] using entry

theorem name_handed_out {name : Name} {sent : SentName} (h : name = paddedName sent) :
    name.toList.take 16 = sent.toList := by
  rw [h, paddedName_toList, List.take_left' (sentName_length sent)]

section
variable {self : Client F} {f : Cfg2} {i j : ℕ} {c : Configuration F} {r : PmuRecord}

theorem channelName_of_carries (hc : self.configuration[i]? = some c) (carries : c.Carries r)
    {ch : PhasorChannel} (hch : r.phasors[j]? = some ch) : getConf_pmu_channelName self i j =
      some (ch.name.toList, if ch.isVoltage then 0 else 1) := by
  obtain ⟨ph, hph, name⟩ := exists_get_of_map_eq carries.phasorNames hch
  obtain ⟨ph', hph', kind⟩ := exists_get_of_map_eq carries.phasorTypes hch
  obtain rfl := Option.some.inj (hph.symm.trans hph')
  simp only [getConf_pmu_channelName, hc, hph, Option.bind_eq_bind, Option.bind_some,
    name_handed_out name, kind]

theorem analogs_of_carries (hc : self.configuration[i]? = some c) (carries : c.Carries r)
    {ch : AnalogChannel} (hch : r.analogs[j]? = some ch) :
    getConf_pmu_analogs self i j = some (ch.name.toList, (ch.analogType.toNat : ℤ)) := by
  obtain ⟨an, han, name⟩ := exists_get_of_map_eq carries.analogNames hch
  obtain ⟨an', han', kind⟩ := exists_get_of_map_eq carries.analogTypes hch
  obtain rfl := Option.some.inj (han.symm.trans han')
  simp only [getConf_pmu_analogs, hc, han, Option.bind_eq_bind, Option.bind_some,
    name_handed_out name, kind]

end

theorem confOut_carries (arrays : PmuArrays F) {cs : List (Configuration F)} {i : ℕ}
    {c : Configuration F} {r : PmuRecord} (hc : cs[i]? = some c) (carries : c.Carries r) :
    ((confOut arrays cs).numPhasors i).toNat = r.phasors.length ∧
      ((confOut arrays cs).numAnalog i).toNat = r.analogs.length ∧
      ((confOut arrays cs).numdigital i).toNat = r.digitals.length ∧
      (confOut arrays cs).freqNom i = FloatArith.ofInt (if r.fnom &&& 0x1 = 0 then 60 else 50) ∧
      (confOut arrays cs).configCount i = r.cfgcnt ∧ (confOut arrays cs).idCode i = r.idCode := by
  have entry : ∀ {α : Type} (a : ℕ → α) (g : Configuration F → α),
      ArrayWrites.writeFrom a 0 (cs.map g) i = g c := by
    intro α a g
    have member : (cs.map g)[i]? = some (g c) := by simp [hc]
    have written := ArrayWrites.writeFrom_get a 0 member
    rwa [Nat.zero_add] at written
  have layout := carries.layout
  refine ⟨?_, ?_, ?_, ?_, ?_, ?_⟩
  · exact (congrArg UInt16.toNat (entry _ _)).trans (congrArg Layout.phasors layout)
  · exact (congrArg UInt16.toNat (entry _ _)).trans (congrArg Layout.analogs layout)
  · exact (congrArg UInt16.toNat (entry _ _)).trans (congrArg Layout.digitals layout)
  · exact (entry _ _).trans carries.fNom
  · exact (entry _ _).trans carries.cfgCnt
  · exact (entry _ _).trans carries.pmuIdcode

theorem handsOut_of_records {self : Client F} (exactly : self.ArraysMatch) (arrays : PmuArrays F)
    (buffers : OutputBuffers F) {i : ℕ} {c : Configuration F} {r : PmuRecord} {s : SentPmu}
    (hc : self.configuration[i]? = some c) (carries : c.Carries r) (unwritten : c.Unwritten)
    (shows : c.Shows s) : HandsOut self (confOut arrays self.configuration)
      (recordsOut buffers self.configuration).buffers i r s := by
  obtain ⟨phasors, analogs, digitals, fNom, cfgCnt, idCode⟩ := confOut_carries arrays hc carries
  have held := recordsOut_holdsPmu exactly.2 arrays buffers hc
  have integers : r.layout.phasorIsFloatingPoint = s.layout.phasorIsFloatingPoint :=
    congrArg Layout.phasorIsFloatingPoint (carries.layout.symm.trans shows.layout)
  constructor
  case stationName =>
    simp only [getConf_pmu_stationName, hc, Option.bind_eq_bind, Option.bind_some,
      name_handed_out carries.stationName]
  case numPhasors => exact phasors
  case numAnalog => exact analogs
  case numdigital => exact digitals
  case freqNom => exact fNom
  case configCount => exact cfgCnt
  case idCode => exact idCode
  case channelName => exact fun j ch hch => channelName_of_carries hc carries hch
  case analogs => exact fun j ch hch => analogs_of_carries hc carries hch
  case polar =>
    intro float polar j w hw
    obtain ⟨ph, hph, same⟩ := exists_get_of_map_eq (shows.polar float polar) hw
    obtain ⟨mag, ang⟩ := held.phasor j ph hph
    exact ⟨mag.trans (Prod.mk.inj same).1, ang.trans (Prod.mk.inj same).2⟩
  case rectangular =>
    intro float rectangular j w hw
    obtain ⟨ph, hph, same⟩ := exists_get_of_map_eq (shows.rectangular float rectangular) hw
    obtain ⟨mag, ang⟩ := held.phasor j ph hph
    exact ⟨mag.trans (Prod.mk.inj same).1, ang.trans (Prod.mk.inj same).2⟩
  case integerPolar =>
    intro integer polar
    obtain ⟨t, same⟩ := shows.integerPolar integer polar
    refine ⟨t, fun j ch hch => ?_⟩
    obtain ⟨ph, hph, factor⟩ :=
      exists_get_of_map_eq (carries.phasorFactors (integers ▸ integer)) hch
    obtain ⟨mag, ang⟩ := held.phasor j ph hph
    have sample := get?_of_map_eq same hph
    rw [← factor]
    exact ⟨mag.trans (Prod.mk.inj sample).1, ang.trans (Prod.mk.inj sample).2⟩
  case integerRectangular =>
    intro integer rectangular j ch w hch hw
    obtain ⟨ph, hph, factor⟩ :=
      exists_get_of_map_eq (carries.phasorFactors (integers ▸ integer)) hch
    obtain ⟨mag, ang⟩ := held.phasor j ph hph
    have sample := get?_of_map_eq_zipWith (shows.integerRectangular integer rectangular) hph hw
    rw [← factor]
    exact ⟨mag.trans (Prod.mk.inj sample).1, ang.trans (Prod.mk.inj sample).2⟩
  case frequency => exact fun float => held.frequency.trans (shows.frequency float)
  case integerFrequency =>
    exact fun integer => held.frequency.trans (shows.integerFrequency integer)
  case rocof => exact fun float => held.rocof.trans (shows.rocof float)
  case integerRocof =>
    intro integer
    have own : c.freqIsFloatingPoint = s.layout.freqIsFloatingPoint :=
      congrArg Layout.freqIsFloatingPoint shows.layout
    exact held.rocof.trans (unwritten.rocof (own.trans (Bool.eq_false_iff.2 integer)))
  case analog =>
    intro float j w hw
    obtain ⟨an, han, same⟩ := exists_get_of_map_eq (shows.analog float) hw
    exact (held.analog j an han).trans same
  case integerAnalog =>
    intro integer j w hw
    have length := congrArg List.length carries.analogNames
    have count : c.analog.length = s.analogs.toList.length := by
      rw [(carries.arraysMatch).2.1, List.Vector.toList_length, ← shows.layout]
      rfl
    obtain ⟨an, han⟩ : ∃ an, c.analog[j]? = some an :=
      ⟨_, List.getElem?_eq_getElem (count ▸ (List.getElem?_eq_some_iff.1 hw).choose)⟩
    have value := get?_of_map_eq_zipWith (shows.integerAnalog integer) han hw
    rw [unwritten.analog an (List.mem_of_getElem? han)] at value
    exact (held.analog j an han).trans value
  case statWord => exact ⟨c, hc, shows.statWord, shows.digital⟩

theorem timeReceive_of_base {timeBase : UInt32} (base : timeBase ≠ 0) (timeStamp : Time F)
    (soc : UInt32) (timeQuality : UInt8) (fracsec : UInt32) :
    (timeStamp.receive timeBase soc timeQuality fracsec).parsedTime =
        some (sentTime timeBase soc fracsec) ∧
      (timeStamp.receive timeBase soc timeQuality fracsec).timeValueInMs =
        timeInMs soc fracsec timeBase := by
  simp only [Time.receive, setFraction, base, ne_eq, not_false_eq_true, if_true, sentTime,
    calendarTime, and_self]

/-- Without a time base the fraction of a second and the milliseconds stay what they were. -/
theorem timeReceive_of_no_base (timeStamp : Time F) (soc : UInt32) (timeQuality : UInt8)
    (fracsec : UInt32) :
    (timeStamp.receive 0 soc timeQuality fracsec).parsedTime =
        some (calendarTime soc timeStamp.fractionOfSecond) ∧
      (timeStamp.receive 0 soc timeQuality fracsec).timeValueInMs = timeStamp.timeValueInMs ∧
      (timeStamp.receive 0 soc timeQuality fracsec).fractionOfSecond =
        timeStamp.fractionOfSecond :=
  ⟨rfl, rfl, rfl⟩

theorem foldl_take_no_base {self : Client F} (base : self.timeBase = 0)
    (frames : List (Transmitted F)) :
    (frames.foldl Client.take self).dataTimeStamp.timeValueInMs =
        self.dataTimeStamp.timeValueInMs ∧
      (frames.foldl Client.take self).dataTimeStamp.fractionOfSecond =
        self.dataTimeStamp.fractionOfSecond := by
  induction frames generalizing self with
  | nil => exact ⟨rfl, rfl⟩
  | cons x frames ih =>
    obtain ⟨_, ms, fraction⟩ := timeReceive_of_no_base self.dataTimeStamp x.frame.soc
      x.frame.timeQuality x.frame.fracsec
    have stamp : (self.take x).dataTimeStamp = self.dataTimeStamp.receive 0 x.frame.soc
        x.frame.timeQuality x.frame.fracsec := by
      rw [← base]
      rfl
    have same : (self.take x).timeBase = 0 := base
    obtain ⟨laterMs, laterFraction⟩ := ih same
    rw [stamp] at laterMs laterFraction
    exact ⟨laterMs.trans ms, laterFraction.trans fraction⟩

/-- The time that the client shows for the frame `x`. -/
structure ShowsTime (timeBase : UInt32) (old : Time F) (x : SentData) (timestamp : ParsedTime F)
    (ms : UInt64) : Prop where
  sent : timeBase ≠ 0 → timestamp = sentTime timeBase x.soc x.fracsec ∧
    ms = timeInMs x.soc x.fracsec timeBase
  unknown : timeBase = 0 → timestamp = calendarTime x.soc old.fractionOfSecond ∧
    ms = old.timeValueInMs

theorem handed_out_after {installed : Client F} {f : Cfg2} (known : installed.idcode = f.idcode)
    (carries : installed.Carries f) (unwritten : installed.Unwritten) {x : Transmitted F}
    (made : x.frame.MadeFor f) (arrays : PmuArrays F) (buffers : OutputBuffers F) :
    ∃ conf out, getConf_pmu (installed.take x) arrays = some conf ∧
      outputDataStream (installed.take x) buffers = some out ∧
      ShowsTime f.timeBase installed.dataTimeStamp x.frame out.timestamp
        (installed.take x).dataTimeStamp.timeValueInMs ∧
      ∀ i r s, f.records[i]? = some r → x.frame.pmus[i]? = some s →
        HandsOut (installed.take x) conf out i r s := by
  have fits := made.fits known carries
  have only : ∀ y ∈ [x], y.frame.Fits installed := by simpa using fits
  have same : (installed.take x).installation = installed.installation :=
    foldl_take_installation only
  have unwritten' : (installed.take x).Unwritten := foldl_take_unwritten only unwritten
  have carries' := carries.of_installation same
  have exactly := carries'.arraysMatch
  have whole : (installed.take x).configuration.take (installed.take x).numPmu.toNat =
      (installed.take x).configuration := List.take_of_length_le exactly.1.le
  have conf := (getConf_pmu_iff (installed.take x) arrays _).2 ⟨exactly.1.ge, rfl⟩
  have stamp : ∃ time, (installed.take x).dataTimeStamp.parsedTime = some time := ⟨_, rfl⟩
  obtain ⟨time, htime⟩ := stamp
  have out := outputDataStream_of_arraysInside exactly.arraysInside htime buffers
  have received : (installed.take x).dataTimeStamp = installed.dataTimeStamp.receive f.timeBase
      x.frame.soc x.frame.timeQuality x.frame.fracsec := by
    rw [← carries.2.1]
    rfl
  rw [whole] at conf out
  refine ⟨_, _, conf, out, ⟨fun base => ?_, fun base => ?_⟩, fun i r s hr hs => ?_⟩
  · obtain ⟨parsed, ms⟩ := timeReceive_of_base base installed.dataTimeStamp x.frame.soc
      x.frame.timeQuality x.frame.fracsec
    rw [← received] at parsed ms
    exact ⟨Option.some.inj (htime.symm.trans parsed), ms⟩
  · obtain ⟨parsed, ms, _⟩ := timeReceive_of_no_base installed.dataTimeStamp x.frame.soc
      x.frame.timeQuality x.frame.fracsec
    rw [← base, ← received] at parsed ms
    exact ⟨Option.some.inj (htime.symm.trans parsed), ms⟩
  · have length := carries'.2.2.2.length_eq
    have hi := (List.getElem?_eq_some_iff.1 hr).choose
    obtain ⟨c, hc⟩ : ∃ c, (installed.take x).configuration[i]? = some c :=
      ⟨_, List.getElem?_eq_getElem (length ▸ hi)⟩
    have record := forall₂_get? carries'.2.2.2 hc hr
    have values := forall₂_get? (take_shows fits) hc hs
    exact handsOut_of_records exactly arrays _ hc record
      (unwritten' c (List.mem_of_getElem? hc)) values

/-- Whatever a client has seen before, a configuration and the data frames that are made for
    it are all accepted, and the calls then hand out what the configuration and the last
    frame were made from. -/
theorem session_hands_out {self : Client F} {f : Cfg2} (known : self.idcode = f.idcode)
    (fits : f.size ≤ BUFER_LENGTH) (uniform : f.Uniform) {frames : List (Transmitted F)}
    (made : ∀ x ∈ frames, x.frame.MadeFor f) (arrays : PmuArrays F) (buffers : OutputBuffers F) :
    ∃ final, run handle self (f.event fits :: frames.map Transmitted.event) =
        some (List.replicate (frames.length + 1) 0, final) ∧
      (∃ time, getConf_pdc final = some (UInt16.ofNat f.records.length, f.dataRate, time)) ∧
      ∀ x, frames.getLast? = some x → ∃ conf out, getConf_pmu final arrays = some conf ∧
        outputDataStream final buffers = some out ∧
        ShowsTime f.timeBase self.dataTimeStamp x.frame out.timestamp
          final.dataTimeStamp.timeValueInMs ∧
        ∀ i r s, f.records[i]? = some r → x.frame.pmus[i]? = some s →
          HandsOut final conf out i r s := by
  obtain ⟨installed, first, carries, unwritten, stamp, unchanged⟩ :=
    handle_configuration known fits uniform
  have known' : installed.idcode = f.idcode := (handle_idcode first).trans known
  have all : ∀ x ∈ frames, x.frame.Fits installed := fun x hx => (made x hx).fits known' carries
  have same := foldl_take_installation all
  refine ⟨frames.foldl Client.take installed, ?_, ?_, fun x last => ?_⟩
  · exact (run_cons_iff _ _ _ _ _ _).2 ⟨0, _, _, first, run_takes all, rfl⟩
  · have kept : (frames.foldl Client.take installed).configTimeStamp = installed.configTimeStamp :=
      congrArg Installed.configTimeStamp same
    obtain ⟨time, htime⟩ := Option.isSome_iff_exists.1 stamp
    obtain ⟨count, _, rate, _⟩ := carries.of_installation same
    refine ⟨time, ?_⟩
    rw [getConf_pdc, kept, htime, ← count, rate, UInt16.ofNat_toNat]
    rfl
  · obtain ⟨before, rfl⟩ := List.getLast?_eq_some_iff.1 last
    have earlier : ∀ y ∈ before, y.frame.Fits installed :=
      fun y hy => all y (List.mem_append_left _ hy)
    have same' := foldl_take_installation earlier
    have still : (before.foldl Client.take installed).idcode = f.idcode :=
      (congrArg Installed.idcode same').trans known'
    have unwritten' := foldl_take_unwritten earlier unwritten
    obtain ⟨conf, out, hconf, hout, time, pmus⟩ := handed_out_after still
      (carries.of_installation same') unwritten'
      (made x (List.mem_append_right _ List.mem_cons_self)) arrays buffers
    rw [List.foldl_append]
    refine ⟨conf, out, hconf, hout, ⟨time.sent, fun base => ?_⟩, pmus⟩
    obtain ⟨ms, fraction⟩ := foldl_take_no_base (carries.2.1.trans base) before
    rw [unchanged] at ms fraction
    obtain ⟨timestamp, value⟩ := time.unknown base
    rw [fraction] at timestamp
    exact ⟨timestamp, value.trans ms⟩

section
attribute [local instance] ExactRational.platform

def letters (c : UInt8) : SentName := List.Vector.replicate 16 c

def voltageRecord : PmuRecord where
  stationName := letters 83
  idCode := 7
  format := 0xF
  phasors := [⟨letters 86, 0⟩]
  analogs := []
  digitals := [⟨fun _ => letters 68, 0, 0xFFFF⟩]
  fnom := 1
  cfgcnt := 4
  phasors_lt := Nat.one_lt_two_pow (Nat.succ_ne_zero 15)
  analogs_lt := Nat.two_pow_pos 16
  digitals_lt := Nat.one_lt_two_pow (Nat.succ_ne_zero 15)

def voltageStation : Cfg2 := ⟨7, 0, 0, 1000, [voltageRecord], 50, by decide⟩

theorem voltageStation_size : voltageStation.size ≤ BUFER_LENGTH := by
  rw [Cfg2.size, voltageStation, List.flatMap_singleton, record_length]
  decide

theorem voltageStation_uniform : voltageStation.Uniform := by
  intro first hfirst r hr
  obtain rfl := List.mem_singleton.1 hr
  cases hfirst
  exact ⟨Layout.SameCounts.refl _, by decide⟩

theorem voltageFrame_madeFor (soc : UInt32) (stat : UInt16) :
    (voltageFrame soc stat).MadeFor voltageStation :=
  ⟨rfl, rfl⟩

theorem voltage_handed_out :
    ∃ final conf out, run handle (Client.fresh 7 0 [] [])
        [voltageStation.event voltageStation_size, (voltageSent 10 1).event,
          (voltageSent 11 2).event] = some ([0, 0, 0], final) ∧
      getConf_pmu final clearedArrays = some conf ∧
      outputDataStream final markedBuffers = some out ∧
      getConf_pmu_stationName final 0 = some (letters 83).toList ∧
      getConf_pmu_channelName final 0 0 = some ((letters 86).toList, 0) ∧
      out.phasorsMagBuffer 0 = 1 ∧ out.phasorsAngBuffer 0 = 2 ∧ out.freqBuffer 0 = 50 ∧
      final.dataTimeStamp.timeValueInMs = 11500 := by
  have made : ∀ x ∈ [voltageSent 10 1, voltageSent 11 2], x.frame.MadeFor voltageStation := by
    intro x hx
    rcases List.mem_cons.1 hx with rfl | hx
    · exact voltageFrame_madeFor 10 1
    · obtain rfl := List.mem_singleton.1 hx
      exact voltageFrame_madeFor 11 2
  have known : (Client.fresh 7 0 [] [] : Client ℚ).idcode = voltageStation.idcode := by
    decide +kernel
  obtain ⟨final, accepted, _, handed⟩ := session_hands_out known voltageStation_size
    voltageStation_uniform made clearedArrays markedBuffers
  obtain ⟨conf, out, hconf, hout, time, pmus⟩ := handed (voltageSent 11 2) rfl
  have pmu := pmus 0 voltageRecord _ rfl rfl
  have phasor := pmu.polar rfl rfl 0 ((0x3F800000 : UInt32), (0x40000000 : UInt32)) rfl
  have start : conf.phasorStart 0 + 0 = 0 := rfl
  rw [start] at phasor
  refine ⟨final, conf, out, accepted, hconf, hout, pmu.stationName,
    pmu.channelName 0 _ rfl, ?_, ?_, ?_, ?_⟩
  · exact phasor.1.trans (by decide +kernel)
  · exact phasor.2.trans (by decide +kernel)
  · exact (pmu.frequency rfl).trans (by decide +kernel)
  · exact (time.sent (by decide)).2.trans (by decide +kernel)

end
end Khorjin
