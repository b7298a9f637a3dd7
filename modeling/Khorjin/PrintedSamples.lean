import Khorjin.PrintedLines

set_option autoImplicit false

/-!
# The measurements that are printed

The lines of `printDataStream` that are about measured values, given by the names and
factors that a configuration frame has sent and by the words of the last data frame.
-/
namespace Khorjin
open ByteMemory LoopRules RunRules
variable {F D : Type} [Platform F D]

/-- The lines about a frequency, a phasor or an analog value. -/
def DataLine.isMeasurement {F : Type} : DataLine F → Bool
  | .frequency _ _ _ | .phasor _ _ _ _ _ | .analog _ _ _ => true
  | _ => false

def PhasorChannel.measured (floating polar : Bool) (t : Temps F) (ch : PhasorChannel)
    {format : Bool} (w : Word format × Word format) : F × F :=
  ((ch.received floating).receive polar t w).sample

/-- The frequency of an integer format is its second word, and the rate of change is never
    written. `t` are the local floats, which an integer phasor in polar form shows instead of
    its own words. An analog line shows the name of the channel, its value is printed by `%u`. -/
def PmuRecord.measured (floating : Bool) (t : Temps F) (i : ℕ) (r : PmuRecord) (s : SentPmu) :
    List (DataLine F) :=
  [.frequency (i + 1) (receivedFrequency (s.freq, s.dfreq))
    (receivedRocof zeroFloat (s.freq, s.dfreq))] ++
  ((r.phasors.zip s.phasors.toList).mapIdx (fun j x =>
    [.phasor (j + 1) (i + 1) x.1.name.text
      (x.1.measured floating s.layout.phasorIsPolar t x.2).1
      (x.1.measured floating s.layout.phasorIsPolar t x.2).2])).flatten ++
  (r.analogs.mapIdx (fun j ch => [.analog (j + 1) (i + 1) ch.name.text])).flatten

/-- `i` PMUs stand in front of these. -/
def measuredPmus (floating : Bool) :
    ℕ → List PmuRecord → List SentPmu → Temps F → List (DataLine F)
  | i, r :: rs, s :: ss, t =>
    r.measured floating t i s ++ measuredPmus floating (i + 1) rs ss (t.behind s)
  | _, _, _, _ => []

def Cfg2.measured (f : Cfg2) (x : Transmitted F) : List (DataLine F) :=
  measuredPmus f.firstFloating 0 f.records x.frame.pmus x.temps

structure Configuration.Measures (floating : Bool) (c : Configuration F) (r : PmuRecord) :
    Prop where
  layout : c.layout = r.layout
  phasor : List.Forall₂ (fun ph ch => ph.installed = (ch.received floating).installed) c.phasor
    r.phasors
  analog : List.Forall₂ (fun an ch => an.installed = (ch.received).installed) c.analog r.analogs

theorem Phasor.receive_of_installed {ph ph' : Phasor F} (same : ph.installed = ph'.installed)
    (polar : Bool) (t : Temps F) {floating : Bool} (w : Word floating × Word floating) :
    (ph.receive polar t w).channelName = ph'.channelName ∧
      (ph.receive polar t w).sample = (ph'.receive polar t w).sample := by
  have name : ph.channelName = ph'.channelName := congrArg Prod.fst same
  have factor : ph.conversionFactor = ph'.conversionFactor := congrArg (fun x => x.2.2) same
  cases floating <;> cases polar <;>
    simp [Phasor.receive, Phasor.sample, name, factor]

theorem Analog.receive_name {an an' : Analog F} (same : an.installed = an'.installed)
    {floating : Bool} (w : Word floating) : (an.receive w).channelName = an'.channelName := by
  have name : an.channelName = an'.channelName := congrArg Prod.fst same
  cases floating with
  | true => exact name
  | false => exact name

theorem forall₂_zipWith_zip {α β γ δ : Type} {R : α → β → Prop} {S : δ → β × γ → Prop}
    {f : α → γ → δ} {xs : List α} {ys : List β} (h : List.Forall₂ R xs ys)
    (step : ∀ x y w, R x y → S (f x w) (y, w)) (ws : List γ) :
    List.Forall₂ S (List.zipWith f xs ws) (ys.zip ws) := by
  induction h generalizing ws with
  | nil => simp
  | cons first _ ih =>
    cases ws with
    | nil => simp
    | cons w ws => exact .cons (step _ _ w first) (ih ws)

theorem forall₂_zipWith_left {α β γ δ : Type} {R : α → β → Prop} {S : δ → β → Prop}
    {f : α → γ → δ} {xs : List α} {ys : List β} {ws : List γ} (h : List.Forall₂ R xs ys)
    (length : ws.length = xs.length) (step : ∀ x y w, R x y → S (f x w) y) :
    List.Forall₂ S (List.zipWith f xs ws) ys := by
  induction h generalizing ws with
  | nil => simp
  | cons first _ ih =>
    cases ws with
    | nil => simp at length
    | cons w ws => exact .cons (step _ _ w first) (ih (Nat.succ.inj length))

theorem filter_lines {α β : Type} {p : β → Bool} {g : ℕ → α → β} {b : Bool}
    (same : ∀ j x, p (g j x) = b) (xs : List α) :
    (xs.mapIdx (fun j x => [g j x])).flatten.filter p =
      if b then (xs.mapIdx (fun j x => [g j x])).flatten else [] := by
  induction xs generalizing g with
  | nil => cases b <;> rfl
  | cons x xs ih =>
    rw [List.mapIdx_cons, List.flatten_cons, List.filter_append, ih (fun j x => same (j + 1) x)]
    cases b <;> simp [same]

theorem dataLines_measurements (i : ℕ) (c : Configuration F) :
    (c.dataLines i).filter DataLine.isMeasurement =
      [.frequency (i + 1) c.frequency c.rocof] ++
      ((c.phasor.take c.layout.phasors).mapIdx (fun j ph =>
        [.phasor (j + 1) (i + 1) ph.channelName.text ph.magnitude ph.angle])).flatten ++
      ((c.analog.take c.layout.analogs).mapIdx (fun j an =>
        [.analog (j + 1) (i + 1) an.channelName.text])).flatten := by
  have phasors := filter_lines (p := DataLine.isMeasurement) (b := true)
    (g := fun j (ph : Phasor F) =>
      DataLine.phasor (j + 1) (i + 1) ph.channelName.text ph.magnitude ph.angle) (fun _ _ => rfl)
    (c.phasor.take c.layout.phasors)
  have analogs := filter_lines (p := DataLine.isMeasurement) (b := true)
    (g := fun j (an : Analog F) =>
      (DataLine.analog (j + 1) (i + 1) an.channelName.text : DataLine F)) (fun _ _ => rfl)
    (c.analog.take c.layout.analogs)
  have digitals := filter_lines (p := DataLine.isMeasurement) (b := false)
    (g := fun j (dg : Digital) => (DataLine.digital (j + 1) (i + 1)
      (fun k => (dg.channel k).channelName.text) (fun k => (dg.channel k).isEnabled)
        (fun k => (dg.channel k).status) : DataLine F))
    (fun _ _ => rfl) (c.digital.take c.layout.digitals)
  have status : List.filter DataLine.isMeasurement
      ([.status (i + 1) c.dataError c.pmuIsNOTSync c.dataSortingByArrivalorTime c.pmuIsTriggered
        c.configToChange c.dataModified c.pmuTimeQuality c.unlockTime] ++
        (if c.pmuIsTriggered then [.triggerReason c.pmuTimeQuality] else []) ++
          [.frequency (i + 1) c.frequency c.rocof]) =
      [.frequency (i + 1) c.frequency c.rocof] := by
    cases c.pmuIsTriggered <;> rfl
  rw [Configuration.dataLines, List.filter_append, List.filter_append, List.filter_append, status,
    phasors, analogs, digitals, if_pos rfl, if_pos rfl, if_neg Bool.false_ne_true, List.append_nil]

theorem receivedRocof_of_unwritten {c : Configuration F} {s : SentPmu}
    (layout : c.layout = s.layout) (unwritten : c.Unwritten) :
    receivedRocof c.rocof (s.freq, s.dfreq) = receivedRocof zeroFloat (s.freq, s.dfreq) := by
  have float : c.freqIsFloatingPoint = s.layout.freqIsFloatingPoint :=
    congrArg Layout.freqIsFloatingPoint layout
  obtain ⟨l, stat, phasors, freq, dfreq, analogs, digitals⟩ := s
  obtain ⟨_, _, freqFloat, _⟩ := l
  cases freqFloat with
  | true => rfl
  | false => exact unwritten.rocof float

theorem measurements_receive {c : Configuration F} {r : PmuRecord} {s : SentPmu} {floating : Bool}
    (measures : c.Measures floating r) (layout : c.layout = s.layout)
    (unwritten : c.Unwritten) (t : Temps F) (i : ℕ) :
    ((c.receive s t).dataLines i).filter DataLine.isMeasurement = r.measured floating t i s := by
  obtain ⟨phasor, analog, _⟩ := receive_arrays c s t
  have rocof : (c.receive s t).rocof = receivedRocof zeroFloat (s.freq, s.dfreq) :=
    receivedRocof_of_unwritten layout unwritten
  have phasors : List.Forall₂
      (fun (ph : Phasor F) (x : PhasorChannel × _) => ph.channelName = paddedName x.1.name ∧
        ph.sample = x.1.measured floating s.layout.phasorIsPolar t x.2)
      (c.receive s t).phasor (r.phasors.zip s.phasors.toList) := by
    rw [phasor]
    exact forall₂_zipWith_zip measures.phasor
      (fun ph ch w same => Phasor.receive_of_installed same _ t w) _
  have kept : s.analogs.toList.length = c.analog.length := by
    rw [List.Vector.toList_length, ← layout, measures.layout, measures.analog.length_eq]
    rfl
  have analogs : List.Forall₂ (fun (an : Analog F) ch => an.channelName = paddedName ch.name)
      (c.receive s t).analog r.analogs := by
    rw [analog]
    exact forall₂_zipWith_left measures.analog kept
      (fun an ch w same => Analog.receive_name same w)
  have phasorCount : (c.receive s t).phasor.length ≤ (c.receive s t).layout.phasors := by
    rw [phasor, layout_receive, measures.layout, List.length_zipWith, measures.phasor.length_eq]
    exact Nat.min_le_left _ _
  have analogCount : (c.receive s t).analog.length ≤ (c.receive s t).layout.analogs := by
    rw [analog, layout_receive, measures.layout, List.length_zipWith, measures.analog.length_eq]
    exact Nat.min_le_left _ _
  rw [dataLines_measurements, List.take_of_length_le phasorCount,
    List.take_of_length_le analogCount, rocof, PmuRecord.measured,
    mapIdx_eq_of_forall₂ phasors (fun ph x h j => ?_),
    mapIdx_eq_of_forall₂ analogs (fun an x h j => ?_)]
  · rfl
  · rw [h, paddedName_text]
  · rw [h.1, ← h.2, paddedName_text]
    rfl

theorem measurements_receivePmus {floating : Bool} {cs : List (Configuration F)}
    {rs : List PmuRecord} {ss : List SentPmu}
    (measures : List.Forall₂ (Configuration.Measures floating) cs rs)
    (layouts : cs.map Configuration.layout = ss.map SentPmu.layout)
    (unwritten : ∀ c ∈ cs, c.Unwritten) (t : Temps F) (k : ℕ) :
    ((receivePmus cs ss t).mapIdx (fun i c => c.dataLines (k + i))).flatten.filter
      DataLine.isMeasurement = measuredPmus floating k rs ss t := by
  induction measures generalizing ss t k with
  | nil => cases ss <;> rfl
  | cons first _ ih =>
    cases ss with
    | nil => simp at layouts
    | cons s ss =>
      rw [List.map_cons, List.map_cons, List.cons.injEq] at layouts
      have rest := ih layouts.2 (fun c hc => unwritten c (List.mem_cons_of_mem _ hc)) (t.behind s)
        (k + 1)
      have one := measurements_receive first layouts.1 (unwritten _ List.mem_cons_self) t k
      simp only [Nat.add_assoc, Nat.add_comm 1] at rest
      rw [receivePmus, List.mapIdx_cons, List.flatten_cons, List.filter_append, Nat.add_zero, one,
        rest]
      rfl

structure Client.Measures (client : Client F) (f : Cfg2) : Prop where
  idcode : client.idcode = f.idcode
  carries : client.Carries f
  records : List.Forall₂ (Configuration.Measures f.firstFloating) client.configuration f.records
  unwritten : client.Unwritten

theorem Configuration.Measures.of_installed {floating : Bool} {c c' : Configuration F}
    {r : PmuRecord} (measures : c.Measures floating r) (same : c'.installed = c.installed) :
    c'.Measures floating r := by
  have phasor : c'.phasor.map Phasor.installed = c.phasor.map Phasor.installed :=
    congrArg InstalledPmu.phasor same
  have analog : c'.analog.map Analog.installed = c.analog.map Analog.installed :=
    congrArg InstalledPmu.analog same
  constructor
  case layout => exact (congrArg InstalledPmu.layout same).trans measures.layout
  case phasor =>
    have before : List.Forall₂ (fun x ch => x = (ch.received floating).installed)
        (c.phasor.map Phasor.installed) r.phasors := List.forall₂_map_left_iff.2 measures.phasor
    rw [← phasor] at before
    exact List.forall₂_map_left_iff.1 before
  case analog =>
    have before : List.Forall₂ (fun x ch => x = ch.received.installed)
        (c.analog.map Analog.installed) r.analogs := List.forall₂_map_left_iff.2 measures.analog
    rw [← analog] at before
    exact List.forall₂_map_left_iff.1 before

theorem Client.Measures.store {self : Client F} {f : Cfg2} (measures : self.Measures f)
    {e : Event F} (data : e.isDataFrame) : (e.store self).Measures f := by
  cases e with
  | configurationFrame x => cases data
  | dataFrame x temps =>
    have same : (self.storeData temps x.buffer.byte).installation = self.installation :=
      storeData_installation self temps x.buffer.byte
    constructor
    case idcode => exact measures.idcode
    case carries => exact measures.carries.of_installation same
    case records =>
      exact forall₂_of_installed (fun _ _ _ same measures => measures.of_installed same)
        measures.records (congrArg Installed.pmus same)
    case unwritten => exact measures.unwritten.store data

theorem foldl_store_measures {self : Client F} {f : Cfg2} (measures : self.Measures f)
    {accepted : List (Event F)} (data : ∀ e ∈ accepted, e.isDataFrame) :
    (accepted.foldl Event.store self).Measures f := by
  induction accepted generalizing self with
  | nil => exact measures
  | cons e accepted ih =>
    exact ih (measures.store (data e List.mem_cons_self))
      (fun e he => data e (List.mem_cons_of_mem _ he))

theorem handle_configuration_measures {self installed : Client F} {f : Cfg2}
    (known : self.idcode = f.idcode) (fits : f.size ≤ BUFER_LENGTH) (uniform : f.Uniform)
    (step : handle self (f.event fits) = some (0, installed)) : installed.Measures f := by
  obtain ⟨installed', step', carries, unwritten, _⟩ :=
    handle_configuration (F := F) known fits uniform
  rw [step] at step'
  cases step'
  obtain ⟨head, records, _, _⟩ := frame_parts (buffer_holds fits)
  obtain ⟨_, _, _, _, _, count⟩ := head_of_holds head
  have channels := configurationAt_channels (F := F) uniform records count
  have stored : installed.configuration =
      configurationAt f.buffer.byte 20 (word16 f.buffer.byte 18).toNat := by
    rcases handle_cases step with ⟨_, _, _, rfl⟩ | ⟨impossible, _⟩
    · rfl
    · simp at impossible
  constructor
  case idcode => exact (handle_idcode step).trans known
  case carries => exact carries
  case records =>
    rw [stored]
    refine channels.imp (fun c r ⟨carries, phasor, analog, _⟩ => ⟨carries.layout, ?_, ?_⟩)
    · rw [phasor, List.forall₂_map_left_iff]
      exact List.forall₂_same.2 (fun _ _ => rfl)
    · rw [analog, List.forall₂_map_left_iff]
      exact List.forall₂_same.2 (fun _ _ => rfl)
  case unwritten => exact unwritten

theorem measured_printed {self : Client F} {f : Cfg2} (measures : self.Measures f)
    {x : Transmitted F} (made : x.frame.MadeFor f) :
    ∃ lines, printDataStream (self.take x) = some lines ∧
      lines.filter DataLine.isMeasurement = f.measured x := by
  have fits := made.fits measures.idcode measures.carries
  have arrays := (fits.keep fits).arrays
  have whole : (self.take x).configuration.take (self.take x).numPmu.toNat =
      (self.take x).configuration := List.take_of_length_le arrays.1.le
  have stamp : ∃ time, (self.take x).dataTimeStamp.parsedTime = some time := ⟨_, rfl⟩
  obtain ⟨time, htime⟩ := stamp
  refine ⟨_, (printDataStream_iff _ _).2 ⟨time, htime, arrays.arraysInside, rfl⟩, ?_⟩
  have measured := measurements_receivePmus measures.records fits.layouts measures.unwritten
    x.temps 0
  simp only [Nat.zero_add] at measured
  rw [Client.dataLines, whole, List.filter_cons_of_neg (by simp [DataLine.isMeasurement])]
  exact measured

/-- Whatever data frames have come in since the configuration, damaged ones among them, the
    measurements that are printed are those of the last accepted frame, under the names and
    with the factors that were sent with the configuration. -/
theorem sent_measurements_printed {self final : Client F} {f : Cfg2}
    (known : self.idcode = f.idcode) (fits : f.size ≤ BUFER_LENGTH) (uniform : f.Uniform)
    {events : List (Event F)} (data : ∀ e ∈ events, e.isDataFrame) {returned : List ℤ}
    (h : run handle self (f.event fits :: events) = some (0 :: returned, final))
    {x : Transmitted F} (made : x.frame.MadeFor f)
    (last : (acceptedOf events returned).getLast? = some x.event) :
    ∃ lines, printDataStream final = some lines ∧
      lines.filter DataLine.isMeasurement = f.measured x := by
  obtain ⟨r, installed, rs, first, later, outcomes⟩ := (run_cons_iff _ _ _ _ _ _).1 h
  cases outcomes
  have start := handle_configuration_measures known fits uniform first
  obtain ⟨before, accepted⟩ := List.getLast?_eq_some_iff.1 last
  have stored := run_stores later
  rw [accepted, List.foldl_append] at stored
  have earlier : ∀ e ∈ before, e.isDataFrame := by
    intro e he
    have member : e ∈ acceptedOf events returned := accepted ▸ List.mem_append_left _ he
    exact data e ((kept_sublist _ _ _).subset member)
  have measures := foldl_store_measures start earlier
  have taken : final = (before.foldl Event.store installed).take x :=
    stored.trans (storeData_of_holds (made.fits measures.idcode measures.carries)
      x.received_holds x.temps)
  rw [taken]
  exact measured_printed measures made

section
attribute [local instance] ExactRational.platform

theorem voltageStation_measured : voltageStation.measured (voltageSent 11 2) =
    [.frequency 1 50 0, .phasor 1 1 (List.replicate 16 86) 1 2] := by
  have frequency : (Word.float (show Word true from (0x42480000 : UInt32)) : ℚ) = 50 := by
    decide +kernel
  have rocof : hundredth (Word.float (show Word true from (0 : UInt32)) : ℚ) = 0 := by
    decide +kernel
  have magnitude : (Word.float (show Word true from (0x3F800000 : UInt32)) : ℚ) = 1 := by
    decide +kernel
  have angle : (Word.float (show Word true from (0x40000000 : UInt32)) : ℚ) = 2 := by
    decide +kernel
  rw [← frequency, ← rocof, ← magnitude, ← angle]
  rfl

theorem voltage_printed :
    ∃ final lines, run handle (Client.fresh 7 0 [] [])
        [voltageStation.event voltageStation_size, (voltageSent 10 1).event,
          (voltageSent 11 2).event] = some ([0, 0, 0], final) ∧
      printDataStream final = some lines ∧
      lines.filter DataLine.isMeasurement =
        [.frequency 1 50 0, .phasor 1 1 (List.replicate 16 86) 1 2] := by
  have known : (Client.fresh 7 0 [] [] : Client ℚ).idcode = voltageStation.idcode := by
    decide +kernel
  obtain ⟨installed, first, carries, _⟩ :=
    handle_configuration known voltageStation_size voltageStation_uniform
  have fits : ∀ x ∈ [voltageSent 10 1, voltageSent 11 2], x.frame.Fits installed := by
    intro x hx
    have known' := (handle_idcode first).trans known
    rcases List.mem_cons.1 hx with rfl | hx
    · exact (voltageFrame_madeFor 10 1).fits known' carries
    · obtain rfl := List.mem_singleton.1 hx
      exact (voltageFrame_madeFor 11 2).fits known' carries
  have data : ∀ e ∈ [(voltageSent 10 1).event, (voltageSent 11 2).event], e.isDataFrame := by
    intro e he
    rcases List.mem_cons.1 he with rfl | he
    · rfl
    · obtain rfl := List.mem_singleton.1 he
      rfl
  have later := run_takes fits
  have h : run handle (Client.fresh 7 0 [] [])
      [voltageStation.event voltageStation_size, (voltageSent 10 1).event,
        (voltageSent 11 2).event] =
        some ([0, 0, 0], [voltageSent 10 1, voltageSent 11 2].foldl Client.take installed) :=
    (run_cons_iff handle _ _ _ _ _).2 ⟨0, installed, [0, 0], first, later, rfl⟩
  obtain ⟨lines, printed, measured⟩ := sent_measurements_printed known voltageStation_size
    voltageStation_uniform data h (voltageFrame_madeFor 11 2) rfl
  exact ⟨_, lines, h, printed, measured.trans voltageStation_measured⟩

end
end Khorjin
