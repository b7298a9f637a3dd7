import Khorjin.OutputArrays

set_option autoImplicit false

/-!
# Cutting the output arrays back into PMUs

The counts that `getConf_pmu` hands out say where the values of each PMU stand in the
arrays that `outputDataStream` fills.
-/
namespace Khorjin
open LoopRules ArrayWrites
variable {F : Type}

def confOut (arrays : PmuArrays F) (cs : List (Configuration F)) : PmuArrays F where
  numPhasors := writeFrom arrays.numPhasors 0 (cs.map Configuration.numberOfPhasors)
  numAnalog := writeFrom arrays.numAnalog 0 (cs.map Configuration.numberOfAnalogs)
  numdigital := writeFrom arrays.numdigital 0 (cs.map Configuration.numberOfDigitals)
  freqNom := writeFrom arrays.freqNom 0 (cs.map Configuration.fNom)
  configCount := writeFrom arrays.configCount 0 (cs.map Configuration.cfgCnt)
  idCode := writeFrom arrays.idCode 0 (cs.map Configuration.pmuIdcode)

theorem confPmu_step (self : Client F) (arrays : PmuArrays F) (i : ℕ) (u : PmuArrays F) :
    confPmu self i (confOut arrays (self.configuration.take i)) = some u ↔
      i < self.configuration.length ∧
        confOut arrays (self.configuration.take (i + 1)) = u := by
  cases hc : self.configuration[i]? with
  | none =>
    have hlen := List.getElem?_eq_none_iff.1 hc
    simp [confPmu, Nat.not_lt.2 hlen]
  | some c =>
    have hlen := (List.getElem?_eq_some_iff.1 hc).choose
    have length : ∀ {α : Type} (g : Configuration F → α),
        0 + ((self.configuration.take i).map g).length = i := by
      intro α g
      simp [Nat.min_eq_left (le_of_lt hlen)]
    simp only [confPmu, hc, Option.bind_eq_bind, Option.bind_some, Option.some.injEq, hlen,
      true_and, confOut, update_writeFrom _ (length _), ← take_succ_map _ hc]

theorem getConf_pmu_iff (self : Client F) (arrays : PmuArrays F) (u : PmuArrays F) :
    getConf_pmu self arrays = some u ↔ self.numPmu.toNat ≤ self.configuration.length ∧
      confOut arrays (self.configuration.take self.numPmu.toNat) = u := by
  have start : confOut arrays (self.configuration.take 0) = arrays := by
    simp only [confOut, List.take_zero, List.map_nil, writeFrom_nil]
  have loop := forLoop_iff (fun i => confOut arrays (self.configuration.take i)) _
    self.numPmu.toNat (fun i _ => confPmu_step self arrays i) u
  rwa [start, forall_lt_iff_le] at loop

theorem confOut_get (arrays : PmuArrays F) {cs : List (Configuration F)} {i : ℕ}
    {c : Configuration F} (h : cs[i]? = some c) :
    (confOut arrays cs).numPhasors i = c.numberOfPhasors ∧
      (confOut arrays cs).numAnalog i = c.numberOfAnalogs := by
  have phasors : (cs.map Configuration.numberOfPhasors)[i]? = some c.numberOfPhasors := by
    simp [h]
  have analogs : (cs.map Configuration.numberOfAnalogs)[i]? = some c.numberOfAnalogs := by
    simp [h]
  have first := writeFrom_get arrays.numPhasors 0 phasors
  have second := writeFrom_get arrays.numAnalog 0 analogs
  rw [Nat.zero_add] at first second
  exact ⟨first, second⟩

namespace PmuArrays

/-- `numPhasors[0] + ... + numPhasors[i - 1]` -/
def phasorStart (conf : PmuArrays F) (i : ℕ) : ℕ := partStart (fun k => (conf.numPhasors k).toNat) i

/-- `numAnalog[0] + ... + numAnalog[i - 1]` -/
def analogStart (conf : PmuArrays F) (i : ℕ) : ℕ := partStart (fun k => (conf.numAnalog k).toNat) i

end PmuArrays

structure HoldsPmu (conf : PmuArrays F) (out : OutputBuffers F) (i : ℕ) (c : Configuration F) :
    Prop where
  phasors : c.phasor.length = (conf.numPhasors i).toNat
  phasor : ∀ j ph, c.phasor[j]? = some ph →
    out.phasorsMagBuffer (conf.phasorStart i + j) = ph.magnitude ∧
      out.phasorsAngBuffer (conf.phasorStart i + j) = ph.angle
  analogs : c.analog.length = (conf.numAnalog i).toNat
  analog : ∀ j an, c.analog[j]? = some an → out.analogBuffer (conf.analogStart i + j) = an.value
  frequency : out.freqBuffer i = c.frequency
  rocof : out.rocofBuffer i = c.rocof

/-- The arrays are those of `n` PMUs one after the other, and keep their old contents
    behind them. -/
structure CutsBack (cs : List (Configuration F)) (n : ℕ) (conf : PmuArrays F)
    (old out : OutputBuffers F) : Prop where
  pmu : ∀ i < n, ∃ c, cs[i]? = some c ∧ HoldsPmu conf out i c
  eachPhasor : ∀ x < conf.phasorStart n, ∃! ij : ℕ × ℕ,
    ij.1 < n ∧ ij.2 < (conf.numPhasors ij.1).toNat ∧ conf.phasorStart ij.1 + ij.2 = x
  eachAnalog : ∀ x < conf.analogStart n, ∃! ij : ℕ × ℕ,
    ij.1 < n ∧ ij.2 < (conf.numAnalog ij.1).toNat ∧ conf.analogStart ij.1 + ij.2 = x
  behindPmus : ∀ x, n ≤ x →
    out.freqBuffer x = old.freqBuffer x ∧ out.rocofBuffer x = old.rocofBuffer x
  behindPhasors : ∀ x, conf.phasorStart n ≤ x →
    out.phasorsMagBuffer x = old.phasorsMagBuffer x ∧
      out.phasorsAngBuffer x = old.phasorsAngBuffer x
  behindAnalogs : ∀ x, conf.analogStart n ≤ x → out.analogBuffer x = old.analogBuffer x

section
variable {cs : List (Configuration F)} (exactly : ∀ c ∈ cs, c.ArraysMatch)
  (arrays : PmuArrays F) (buffers : OutputBuffers F)
include exactly

theorem magnitudes_lengths : ∀ i c, cs[i]? = some c →
    c.magnitudes.length = ((confOut arrays cs).numPhasors i).toNat := by
  intro i c hc
  obtain ⟨phasors, _⟩ := exactly c (List.mem_of_getElem? hc)
  rw [(confOut_get arrays hc).1, ← phasors, Configuration.magnitudes, List.length_map,
    List.length_take]
  exact Nat.min_eq_right phasors.le

theorem angles_lengths : ∀ i c, cs[i]? = some c →
    c.angles.length = ((confOut arrays cs).numPhasors i).toNat := by
  intro i c hc
  rw [← magnitudes_lengths exactly arrays i c hc]
  simp [Configuration.angles, Configuration.magnitudes]

theorem values_lengths : ∀ i c, cs[i]? = some c →
    c.values.length = ((confOut arrays cs).numAnalog i).toNat := by
  intro i c hc
  obtain ⟨_, analogs, _⟩ := exactly c (List.mem_of_getElem? hc)
  rw [(confOut_get arrays hc).2, ← analogs, Configuration.values, List.length_map,
    List.length_take]
  exact Nat.min_eq_right analogs.le

theorem recordsOut_holdsPmu {i : ℕ} {c : Configuration F} (hc : cs[i]? = some c) :
    HoldsPmu (confOut arrays cs) (recordsOut buffers cs).buffers i c := by
  obtain ⟨phasors, analogs, _⟩ := exactly c (List.mem_of_getElem? hc)
  have phasor_lt : ∀ {j ph}, c.phasor[j]? = some ph → j < c.layout.phasors :=
    fun h => Nat.lt_of_lt_of_eq (List.getElem?_eq_some_iff.1 h).choose phasors
  have analog_lt : ∀ {j an}, c.analog[j]? = some an → j < c.layout.analogs :=
    fun h => Nat.lt_of_lt_of_eq (List.getElem?_eq_some_iff.1 h).choose analogs
  obtain ⟨nP, nA⟩ := confOut_get arrays hc
  obtain ⟨frequency, rocof⟩ := recordsOut_frequency buffers hc
  constructor
  case phasors => rw [nP, phasors]
  case analogs => rw [nA, analogs]
  case frequency => exact frequency
  case rocof => exact rocof
  case phasor =>
    intro j ph hph
    obtain ⟨mag, ang⟩ := magnitudes_get (phasor_lt hph) hph
    exact ⟨writeFrom_part (magnitudes_lengths exactly arrays) _ hc mag,
      writeFrom_part (angles_lengths exactly arrays) _ hc ang⟩
  case analog =>
    intro j an han
    exact writeFrom_part (values_lengths exactly arrays) _ hc (values_get (analog_lt han) han)

theorem recordsOut_cutsBack (timestamp : ParsedTime F) :
    CutsBack cs cs.length (confOut arrays cs) buffers
      (recordsOut { buffers with timestamp } cs).buffers := by
  have behind : ∀ (a : ℕ → F) {values : List F} {n x : ℕ}, values.length = n → n ≤ x →
      writeFrom a 0 values x = a x := by
    intro a values n x length hx
    exact writeFrom_behind a (by omega)
  have mags := flatMap_length (magnitudes_lengths exactly arrays)
  have angs := flatMap_length (angles_lengths exactly arrays)
  have vals := flatMap_length (values_lengths exactly arrays)
  have freqs : (cs.map Configuration.frequency).length = cs.length := List.length_map _
  have rocofs : (cs.map Configuration.rocof).length = cs.length := List.length_map _
  constructor
  case pmu =>
    intro i hi
    have hc : cs[i]? = some cs[i] := List.getElem?_eq_getElem hi
    exact ⟨cs[i], hc, recordsOut_holdsPmu exactly arrays _ hc⟩
  case eachPhasor => exact fun x hx => existsUnique_part _ hx
  case eachAnalog => exact fun x hx => existsUnique_part _ hx
  case behindPmus =>
    exact fun x hx => ⟨behind buffers.freqBuffer freqs hx, behind buffers.rocofBuffer rocofs hx⟩
  case behindPhasors =>
    exact fun x hx =>
      ⟨behind buffers.phasorsMagBuffer mags hx, behind buffers.phasorsAngBuffer angs hx⟩
  case behindAnalogs => exact fun x hx => behind buffers.analogBuffer vals hx

end

/-- With the arrays that `getConf_pmu` hands out, what `outputDataStream` writes is cut back
    into the PMUs. The call returns once a data frame has been accepted, its indices counting
    the values written. -/
theorem flat_output_cuts_back {self : Client F} (exactly : self.ArraysMatch)
    (arrays : PmuArrays F) (buffers : OutputBuffers F) :
    ((outputDataStream self buffers).isSome ↔ self.dataTimeStamp.parsedTime.isSome) ∧
      ∃ conf, getConf_pmu self arrays = some conf ∧
        ∀ out, outputDataStream self buffers = some out →
          CutsBack self.configuration self.numPmu.toNat conf buffers out ∧
            ∃ timestamp s, outputChannels self { buffers with timestamp } = some s ∧
              s.buffers = out ∧ s.k = conf.phasorStart self.numPmu.toNat ∧
              s.m = conf.analogStart self.numPmu.toNat := by
  obtain ⟨count, records⟩ := exactly
  have whole : self.configuration.take self.numPmu.toNat = self.configuration :=
    List.take_of_length_le count.le
  have inside : self.ArraysInside := Client.ArraysMatch.arraysInside ⟨count, records⟩
  have conf := (getConf_pmu_iff self arrays _).2 ⟨count.ge, rfl⟩
  rw [whole] at conf
  constructor
  · cases stamp : self.dataTimeStamp.parsedTime with
    | none => simp [outputDataStream, stamp]
    | some time => simp [outputDataStream_of_arraysInside inside stamp buffers]
  · refine ⟨_, conf, fun out run => ?_⟩
    simp only [outputDataStream, Option.bind_eq_bind, Option.bind_eq_some_iff] at run
    obtain ⟨time, _, s, channels, hs⟩ := run
    cases hs
    obtain ⟨_, rfl⟩ := (outputChannels_iff self _ s).1 channels
    rw [whole, ← count]
    refine ⟨recordsOut_cutsBack records arrays buffers time, time, _, ?_, rfl,
      flatMap_length (magnitudes_lengths records arrays),
      flatMap_length (values_lengths records arrays)⟩
    rw [whole] at channels
    exact channels

section
variable {D : Type} [Platform F D]

def pmuWith (magnitudes values : List F) : Configuration F :=
  { Configuration.zero with
    numberOfPhasors := UInt16.ofNat magnitudes.length
    numberOfAnalogs := UInt16.ofNat values.length
    phasor := magnitudes.map (fun magnitude => { Phasor.zero with magnitude })
    analog := values.map (fun value => { Analog.zero with value }) }

end

section
attribute [local instance] ExactRational.platform

def threePmus : Client ℚ :=
  { Client.fresh 7 0 [] [] with
    numPmu := 3
    configuration := [pmuWith [10, 11] [1], pmuWith [] [], pmuWith [12] [2, 3]]
    dataTimeStamp := { Time.zero with parsedTime := some (convertEpochToCalendar 0) } }

theorem threePmus_arraysMatch : threePmus.ArraysMatch := by decide +kernel

def clearedArrays : PmuArrays ℚ :=
  ⟨fun _ => 0, fun _ => 0, fun _ => 0, fun _ => 0, fun _ => 0, fun _ => 0⟩

def markedBuffers : OutputBuffers ℚ :=
  ⟨convertEpochToCalendar 0, fun _ => 99, fun _ => 99, fun _ => 99, fun _ => 99, fun _ => 99⟩

theorem third_pmu_found :
    ∃ conf out, getConf_pmu threePmus clearedArrays = some conf ∧
      outputDataStream threePmus markedBuffers = some out ∧ conf.phasorStart 2 = 2 ∧
      out.phasorsMagBuffer 2 = 12 ∧ conf.analogStart 2 = 1 ∧ out.analogBuffer 2 = 3 ∧
      out.analogBuffer 3 = 99 := by
  obtain ⟨returns, conf, hconf, cut⟩ :=
    flat_output_cuts_back threePmus_arraysMatch clearedArrays markedBuffers
  obtain ⟨out, hout⟩ := Option.isSome_iff_exists.1 (returns.2 rfl)
  obtain ⟨cuts, _⟩ := cut out hout
  have phasors : conf.phasorStart 2 = 2 := by
    cases hconf
    rfl
  have analogs : conf.analogStart 2 = 1 ∧ conf.analogStart 3 = 3 := by
    cases hconf
    exact ⟨rfl, rfl⟩
  obtain ⟨c, hc, holds⟩ := cuts.pmu 2 (by decide)
  cases hc
  have phasor := (holds.phasor 0 { Phasor.zero with magnitude := 12 } rfl).1
  have analog := holds.analog 1 { Analog.zero with value := 3 } rfl
  rw [phasors] at phasor
  rw [analogs.1] at analog
  exact ⟨conf, out, hconf, hout, phasors, phasor, analogs.1, analog,
    cuts.behindAnalogs 3 analogs.2.le⟩

end
end Khorjin
