import Khorjin.DataRoundTrip
import Khorjin.StreamFraming

set_option autoImplicit false

/-!
# Runs over sent data frames

A client that is configured for a PMU takes every frame the PMU sends. What it shows
afterwards are the values of the last one.
-/
namespace Khorjin
open ByteMemory LoopRules RunRules
variable {F D : Type} [Platform F D]

/-- A record holds what the parser makes of the values that a PMU has sent. Only a
    floating-point format leaves them as they are. -/
structure Configuration.Shows (c : Configuration F) (s : SentPmu) : Prop where
  layout : c.layout = s.layout
  statWord : c.statWord = s.stat
  polar : s.layout.phasorIsFloatingPoint → s.layout.phasorIsPolar →
    c.phasor.map Phasor.sample = s.phasors.toList.map (fun w => (w.1.float, w.2.float))
  rectangular : s.layout.phasorIsFloatingPoint → ¬ s.layout.phasorIsPolar →
    c.phasor.map Phasor.sample = s.phasors.toList.map (fun w =>
      (FloatArith.narrow (magnitudeOf w.1.float (w.2.float : F)), angleOf w.1.float w.2.float))
  -- the words are read but two local floats are stored
  integerPolar : ¬ s.layout.phasorIsFloatingPoint → s.layout.phasorIsPolar → ∃ t : Temps F,
    c.phasor.map Phasor.sample = c.phasor.map (fun ph =>
      (FloatArith.mul t.tempFloat_1 ph.conversionFactor,
        FloatArith.mul t.tempFloat_2 ph.conversionFactor))
  integerRectangular : ¬ s.layout.phasorIsFloatingPoint → ¬ s.layout.phasorIsPolar →
    c.phasor.map Phasor.sample = List.zipWith (fun ph w =>
      (FloatArith.narrow (FloatArith.mulD F (magnitudeOf w.1.float (w.2.float : F))
        (FloatArith.widen ph.conversionFactor)), angleOf w.1.float w.2.float))
      c.phasor s.phasors.toList
  frequency : s.layout.freqIsFloatingPoint → c.frequency = s.freq.float
  integerFrequency : ¬ s.layout.freqIsFloatingPoint → c.frequency = hundredth s.dfreq.float
  rocof : s.layout.freqIsFloatingPoint → c.rocof = hundredth s.dfreq.float
  analog : s.layout.analogIsFloatingPoint →
    c.analog.map Analog.value = s.analogs.toList.map Word.float
  integerAnalog : ¬ s.layout.analogIsFloatingPoint → c.analog.map Analog.value =
    List.zipWith (fun an w => FloatArith.mul w.float an.conversionFactor)
      c.analog s.analogs.toList
  digital : c.digital.map Digital.digitalWord = s.digitals.toList

/-- The rate of change where no frame writes it. -/
def Configuration.integerRocof {F : Type} (c : Configuration F) : Option F :=
  if c.freqIsFloatingPoint then none else some c.rocof

theorem Phasor.receive_polar {floating : Bool} (float : floating = true) (t : Temps F)
    (ph : Phasor F) (w : Word floating × Word floating) :
    (ph.receive true t w).sample = (w.1.float, w.2.float) := by
  subst float
  rfl

theorem Phasor.receive_rectangular {floating : Bool} (float : floating = true) (t : Temps F)
    (ph : Phasor F) (w : Word floating × Word floating) : (ph.receive false t w).sample =
      (FloatArith.narrow (magnitudeOf w.1.float (w.2.float : F)),
        angleOf w.1.float w.2.float) := by
  subst float
  rfl

theorem Analog.receive_value {floating : Bool} (float : floating = true) (an : Analog F)
    (w : Word floating) : (an.receive w).value = w.float := by
  subst float
  rfl

theorem map_zipWith_self {α β γ : Type} {step : α → β → α} {g : α → γ} {h : α → β → γ}
    (value : ∀ x w, g (step x w) = h (step x w) w) (xs : List α) (ws : List β) :
    (List.zipWith step xs ws).map g = List.zipWith h (List.zipWith step xs ws) ws := by
  induction xs generalizing ws with
  | nil => rfl
  | cons x xs ih =>
    cases ws with
    | nil => rfl
    | cons w ws =>
      rw [List.zipWith_cons_cons, List.map_cons, List.zipWith_cons_cons, value, ih]

theorem Phasor.receive_integerPolar {floating : Bool} (integer : ¬ floating) (t : Temps F)
    (ph : Phasor F) (w : Word floating × Word floating) : (ph.receive true t w).sample =
      (FloatArith.mul t.tempFloat_1 (ph.receive true t w).conversionFactor,
        FloatArith.mul t.tempFloat_2 (ph.receive true t w).conversionFactor) := by
  obtain rfl := Bool.eq_false_iff.2 integer
  rfl

theorem Phasor.receive_integerRectangular {floating : Bool} (integer : ¬ floating) (t : Temps F)
    (ph : Phasor F) (w : Word floating × Word floating) : (ph.receive false t w).sample =
      (FloatArith.narrow (FloatArith.mulD F (magnitudeOf w.1.float (w.2.float : F))
        (FloatArith.widen (ph.receive false t w).conversionFactor)),
          angleOf w.1.float w.2.float) := by
  obtain rfl := Bool.eq_false_iff.2 integer
  rfl

theorem Analog.receive_integer {floating : Bool} (integer : ¬ floating) (an : Analog F)
    (w : Word floating) :
    (an.receive w).value = FloatArith.mul w.float (an.receive w).conversionFactor := by
  obtain rfl := Bool.eq_false_iff.2 integer
  rfl

theorem receivedFrequency_float {floating : Bool} (float : floating = true)
    (w : Word floating × Word floating) : (receivedFrequency w : F) = w.1.float := by
  subst float
  rfl

theorem receivedFrequency_integer {floating : Bool} (integer : ¬ floating)
    (w : Word floating × Word floating) : (receivedFrequency w : F) = hundredth w.2.float := by
  obtain rfl := Bool.eq_false_iff.2 integer
  rfl

theorem receivedRocof_float {floating : Bool} (float : floating = true) (old : F)
    (w : Word floating × Word floating) : receivedRocof old w = hundredth w.2.float := by
  subst float
  rfl

theorem receivedRocof_integer {floating : Bool} (integer : ¬ floating) (old : F)
    (w : Word floating × Word floating) : receivedRocof old w = old := by
  obtain rfl := Bool.eq_false_iff.2 integer
  rfl

theorem receive_arrays (c : Configuration F) (s : SentPmu) (t : Temps F) :
    (c.receive s t).phasor =
        List.zipWith (Phasor.receive s.layout.phasorIsPolar t) c.phasor s.phasors.toList ∧
      (c.receive s t).analog = List.zipWith Analog.receive c.analog s.analogs.toList ∧
      (c.receive s t).digital = List.zipWith Digital.storeWord c.digital s.digitals.toList :=
  ⟨rfl, rfl, rfl⟩

theorem layout_receive (c : Configuration F) (s : SentPmu) (t : Temps F) :
    (c.receive s t).layout = c.layout := by
  simp only [Configuration.receive, Configuration.layout_setDigital,
    Configuration.layout_setAnalog, Configuration.layout_setRocof,
    Configuration.layout_setFrequency, Configuration.layout_setPhasor,
    Configuration.layout_storeSTAT]

theorem receive_shows {c : Configuration F} {s : SentPmu} (exactly : c.ArraysMatch)
    (layout : c.layout = s.layout) (t : Temps F) : (c.receive s t).Shows s := by
  obtain ⟨phasors, analogs, digitals⟩ := exactly
  have phasors : c.phasor.length = s.phasors.toList.length := by
    rw [phasors, List.Vector.toList_length, ← layout]
    rfl
  have analogs : c.analog.length = s.analogs.toList.length := by
    rw [analogs, List.Vector.toList_length, ← layout]
    rfl
  have digitals : c.digital.length = s.digitals.toList.length := by
    rw [digitals, List.Vector.toList_length, ← layout]
    rfl
  obtain ⟨phasor, analog, digital⟩ := receive_arrays c s t
  constructor
  case layout => rw [layout_receive, layout]
  case statWord => rfl
  case polar =>
    intro float polar
    rw [phasor, polar]
    exact map_zipWith_of_snd phasors (Phasor.receive_polar float t)
  case rectangular =>
    intro float rectangular
    rw [phasor, Bool.eq_false_iff.2 rectangular]
    exact map_zipWith_of_snd phasors (Phasor.receive_rectangular float t)
  case integerPolar =>
    intro integer polar
    refine ⟨t, ?_⟩
    rw [phasor, polar, List.map_zipWith, List.map_zipWith]
    simp only [Phasor.receive_integerPolar integer t]
  case integerRectangular =>
    intro integer rectangular
    rw [phasor, Bool.eq_false_iff.2 rectangular]
    exact map_zipWith_self (Phasor.receive_integerRectangular integer t) _ _
  case frequency =>
    intro float
    exact receivedFrequency_float float (s.freq, s.dfreq)
  case integerFrequency =>
    intro integer
    exact receivedFrequency_integer integer (s.freq, s.dfreq)
  case rocof =>
    intro float
    exact receivedRocof_float float c.rocof (s.freq, s.dfreq)
  case analog =>
    intro float
    rw [analog]
    exact map_zipWith_of_snd analogs (Analog.receive_value float)
  case integerAnalog =>
    intro integer
    rw [analog]
    exact map_zipWith_self (Analog.receive_integer integer) _ _
  case digital =>
    have words : ∀ dg w, (Digital.storeWord dg w).digitalWord = id w := fun _ _ => rfl
    rw [digital, map_zipWith_of_snd digitals words, List.map_id]

theorem receivePmus_shows {cs : List (Configuration F)} {ss : List SentPmu}
    (exactly : ∀ c ∈ cs, c.ArraysMatch)
    (layouts : cs.map Configuration.layout = ss.map SentPmu.layout) (t : Temps F) :
    List.Forall₂ Configuration.Shows (receivePmus cs ss t) ss := by
  induction cs generalizing ss t with
  | nil =>
    rw [List.map_eq_nil_iff.1 layouts.symm]
    exact .nil
  | cons c cs ih =>
    cases ss with
    | nil => simp at layouts
    | cons s ss =>
      rw [List.map_cons, List.map_cons, List.cons.injEq] at layouts
      have first := receive_shows (exactly c List.mem_cons_self) layouts.1 t
      have rest := ih (fun c hc => exactly c (List.mem_cons_of_mem _ hc)) layouts.2 (t.behind s)
      exact .cons first rest

theorem receive_integerRocof {c : Configuration F} {s : SentPmu} (layout : c.layout = s.layout)
    (t : Temps F) : (c.receive s t).integerRocof = c.integerRocof := by
  have kept := congrArg Layout.freqIsFloatingPoint (layout_receive c s t)
  have kept : (c.receive s t).freqIsFloatingPoint = c.freqIsFloatingPoint := kept
  have sent : c.freqIsFloatingPoint = s.layout.freqIsFloatingPoint :=
    congrArg Layout.freqIsFloatingPoint layout
  rw [Configuration.integerRocof, Configuration.integerRocof, kept]
  split_ifs with float
  · rfl
  · exact congrArg some (receivedRocof_integer (sent ▸ float) c.rocof (s.freq, s.dfreq))

theorem receivePmus_integerRocof {cs : List (Configuration F)} {ss : List SentPmu}
    (layouts : cs.map Configuration.layout = ss.map SentPmu.layout) (t : Temps F) :
    (receivePmus cs ss t).map Configuration.integerRocof =
      cs.map Configuration.integerRocof := by
  induction cs generalizing ss t with
  | nil => rfl
  | cons c cs ih =>
    cases ss with
    | nil => simp at layouts
    | cons s ss =>
      rw [List.map_cons, List.map_cons, List.cons.injEq] at layouts
      rw [receivePmus, List.map_cons, List.map_cons, receive_integerRocof layouts.1,
        ih layouts.2]

/-- A frame on its way, and the local floats that the parser meets. -/
structure Transmitted (F : Type) where
  frame : SentData
  room : frame.size ≤ BUFER_LENGTH
  temps : Temps F

namespace Transmitted

theorem two_le (x : Transmitted F) : 2 ≤ x.frame.encode.length := by
  rw [SentData.encode_length, SentData.size]
  omega

theorem length_le (x : Transmitted F) : x.frame.encode.length ≤ BUFER_LENGTH := by
  rw [SentData.encode_length]
  exact x.room

def received (x : Transmitted F) : Received := .ofBytes x.frame.encode x.two_le x.length_le

def event (x : Transmitted F) : Event F := .dataFrame x.received x.temps

theorem received_holds (x : Transmitted F) : Holds x.received.buffer.byte 0 x.frame.encode := by
  exact holds_zeroFilled x.length_le

theorem received_size (x : Transmitted F) : x.received.size = x.frame.size :=
  SentData.encode_length x.frame

end Transmitted

def Client.take (self : Client F) (x : Transmitted F) : Client F := self.receive x.frame x.temps

theorem SentData.Fits.takes {self : Client F} {x : Transmitted F} (fits : x.frame.Fits self) :
    handle self x.event = some (0, self.take x) := by
  have stored := storeData_of_holds fits x.received_holds x.temps
  have passes := sent_passes x.received_holds (by
    have := x.room
    unfold BUFER_LENGTH at this
    omega)
  refine (handle_iff self x.event _).2 (.inl ⟨?_, ⟨fits.arrays.arraysInside, ?_⟩, ?_⟩)
  · change FramePasses 0x01 self.idcode x.received.buffer.byte x.received.size
    rw [x.received_size, ← fits.idcode]
    exact passes
  · apply x.received.defined_le
    have := dataEnd_of_fits fits
    have := x.room
    omega
  · exact congrArg (Prod.mk 0) stored

theorem SentData.Fits.keep {self : Client F} {f : SentData} {x : Transmitted F}
    (fits : x.frame.Fits self) (next : f.Fits self) : f.Fits (self.take x) := by
  obtain ⟨idcode, arrays, layouts⟩ := next
  rw [Client.take, ← storeData_of_holds fits x.received_holds]
  exact ⟨idcode, storeData_arraysMatch arrays _ _, (layouts_storeData self _ _).trans layouts⟩

theorem take_shows {self : Client F} {x : Transmitted F} (fits : x.frame.Fits self) :
    List.Forall₂ Configuration.Shows (self.take x).configuration x.frame.pmus :=
  receivePmus_shows fits.arrays.2 fits.layouts x.temps

theorem foldl_take_fits {self : Client F} {frames : List (Transmitted F)} {f : SentData}
    (fits : ∀ x ∈ frames, x.frame.Fits self) (next : f.Fits self) :
    f.Fits (frames.foldl Client.take self) := by
  induction frames generalizing self with
  | nil => exact next
  | cons x frames ih =>
    have first := fits x List.mem_cons_self
    exact ih (fun y hy => first.keep (fits y (List.mem_cons_of_mem _ hy))) (first.keep next)

theorem foldl_take_integerRocof {self : Client F} {frames : List (Transmitted F)}
    (fits : ∀ x ∈ frames, x.frame.Fits self) :
    (frames.foldl Client.take self).configuration.map Configuration.integerRocof =
      self.configuration.map Configuration.integerRocof := by
  induction frames generalizing self with
  | nil => rfl
  | cons x frames ih =>
    have first := fits x List.mem_cons_self
    have later := ih (fun y hy => first.keep (fits y (List.mem_cons_of_mem _ hy)))
    exact later.trans (receivePmus_integerRocof first.layouts x.temps)

theorem run_takes {self : Client F} {frames : List (Transmitted F)}
    (fits : ∀ x ∈ frames, x.frame.Fits self) : run handle self (frames.map Transmitted.event) =
      some (List.replicate frames.length 0, frames.foldl Client.take self) := by
  induction frames generalizing self with
  | nil => rfl
  | cons x frames ih =>
    have first := fits x List.mem_cons_self
    have later := ih (fun y hy => first.keep (fits y (List.mem_cons_of_mem _ hy)))
    exact (run_cons_iff _ _ _ _ _ _).2 ⟨0, _, _, first.takes, later, rfl⟩

/-- Every frame that is sent to a client configured for it is accepted, whatever the local
    floats hold. The run ends with what is made of the last frame, and no frame writes the
    rate of change of an integer format. -/
theorem sent_frames_received {self : Client F} {frames : List (Transmitted F)}
    (fits : ∀ x ∈ frames, x.frame.Fits self) :
    run handle self (frames.map Transmitted.event) =
        some (List.replicate frames.length 0, frames.foldl Client.take self) ∧
      (∀ x, frames.getLast? = some x →
        List.Forall₂ Configuration.Shows (frames.foldl Client.take self).configuration
          x.frame.pmus) ∧
      (frames.foldl Client.take self).configuration.map Configuration.integerRocof =
        self.configuration.map Configuration.integerRocof := by
  refine ⟨run_takes fits, fun x last => ?_, foldl_take_integerRocof fits⟩
  obtain ⟨before, rfl⟩ := List.getLast?_eq_some_iff.1 last
  rw [List.foldl_append]
  apply take_shows
  exact foldl_take_fits (fun y hy => fits y (List.mem_append_left _ hy))
    (fits x (List.mem_append_right _ List.mem_cons_self))

section
attribute [local instance] ExactRational.platform

def voltageValues (stat digital : UInt16) (magnitude angle freq dfreq : UInt32) : SentPmu where
  layout := ⟨true, true, true, true, 1, 0, 1⟩
  stat := stat
  phasors := ⟨[(magnitude, angle)], rfl⟩
  freq := freq
  dfreq := dfreq
  analogs := ⟨[], rfl⟩
  digitals := ⟨[digital], rfl⟩

/-- The magnitude is 1 and the angle 2, at 50 Hz. -/
def voltageFrame (soc : UInt32) (stat : UInt16) : SentData :=
  ⟨7, soc, 0, 500, [voltageValues stat 3 0x3F800000 0x40000000 0x42480000 0], by decide⟩

theorem voltageFrame_room (soc : UInt32) (stat : UInt16) :
    (voltageFrame soc stat).size ≤ BUFER_LENGTH := by
  change 16 + 20 ≤ 10000
  decide

def voltageSent (soc : UInt32) (stat : UInt16) : Transmitted ℚ :=
  ⟨voltageFrame soc stat, voltageFrame_room soc stat, ⟨0, 0⟩⟩

def voltageClient : Client ℚ :=
  { Client.fresh 7 0 [] [] with
    numPmu := 1
    timeBase := 1000
    configuration := [{ Configuration.zero with
      phasorIsFloatingPoint := true
      phasorIsPolar := true
      freqIsFloatingPoint := true
      analogIsFloatingPoint := true
      numberOfPhasors := 1
      numberOfDigitals := 1
      phasor := [Phasor.zero]
      digital := [Digital.zero] }] }

theorem voltageFrame_fits (soc : UInt32) (stat : UInt16) :
    (voltageFrame soc stat).Fits voltageClient := by
  refine ⟨?_, by decide +kernel, rfl⟩
  change (7 : UInt16) = voltageClient.idcode
  decide +kernel

theorem second_frame_shown :
    ∃ final, run handle voltageClient [(voltageSent 10 1).event, (voltageSent 11 2).event] =
        some ([0, 0], final) ∧
      final.configuration.map Configuration.statWord = [2] ∧
      final.configuration.map (fun c => c.phasor.map Phasor.sample) = [[(1, 2)]] := by
  have fits : ∀ x ∈ [voltageSent 10 1, voltageSent 11 2], x.frame.Fits voltageClient := by
    intro x hx
    rcases List.mem_cons.1 hx with rfl | hx
    · exact voltageFrame_fits 10 1
    · obtain rfl := List.mem_singleton.1 hx
      exact voltageFrame_fits 11 2
  obtain ⟨accepted, shown, _⟩ := sent_frames_received fits
  have last := shown (voltageSent 11 2) rfl
  refine ⟨_, accepted, ?_, by decide +kernel⟩
  cases last with
  | cons first rest =>
    cases rest
    exact congrArg (fun w => [w]) first.statWord

end
end Khorjin
