import Khorjin.ArrayWrites
import Khorjin.ChannelOutput
import Khorjin.DataSlots

set_option autoImplicit false

/-!
# The arrays that `outputDataStream` fills

The two running indices make one list of the phasors of all PMUs, and one of their
analogs.
-/
namespace Khorjin
open LoopRules ArrayWrites
variable {F : Type}

namespace Configuration

def magnitudes (c : Configuration F) : List F :=
  (c.phasor.take c.layout.phasors).map Phasor.magnitude

def angles (c : Configuration F) : List F := (c.phasor.take c.layout.phasors).map Phasor.angle

def values (c : Configuration F) : List F := (c.analog.take c.layout.analogs).map Analog.value

end Configuration

def phasorsOut (c : Configuration F) (s : OutputState F) (j : ℕ) : OutputState F where
  buffers := { s.buffers with
    phasorsMagBuffer :=
      writeFrom s.buffers.phasorsMagBuffer s.k ((c.phasor.take j).map Phasor.magnitude)
    phasorsAngBuffer :=
      writeFrom s.buffers.phasorsAngBuffer s.k ((c.phasor.take j).map Phasor.angle) }
  k := s.k + j
  m := s.m

theorem outputPhasor_step (c : Configuration F) (s : OutputState F) (j : ℕ) (u : OutputState F) :
    outputPhasor c j (phasorsOut c s j) = some u ↔
      j < c.phasor.length ∧ phasorsOut c s (j + 1) = u := by
  cases hph : c.phasor[j]? with
  | none =>
    have hlen := List.getElem?_eq_none_iff.1 hph
    simp [outputPhasor, Nat.not_lt.2 hlen]
  | some ph =>
    have hlen := (List.getElem?_eq_some_iff.1 hph).choose
    have mags : s.k + ((c.phasor.take j).map Phasor.magnitude).length = s.k + j := by
      simp [Nat.min_eq_left (le_of_lt hlen)]
    have angs : s.k + ((c.phasor.take j).map Phasor.angle).length = s.k + j := by
      simp [Nat.min_eq_left (le_of_lt hlen)]
    simp only [outputPhasor, hph, Option.bind_eq_bind, Option.bind_some, Option.some.injEq, hlen,
      true_and, phasorsOut, update_writeFrom _ mags, update_writeFrom _ angs,
      ← take_succ_map _ hph, Nat.add_assoc]

theorem outputPhasors_iff (c : Configuration F) (s : OutputState F) (n : ℕ) (u : OutputState F) :
    forLoop (outputPhasor c) n s = some u ↔ n ≤ c.phasor.length ∧ phasorsOut c s n = u := by
  have start : phasorsOut c s 0 = s := by
    simp only [phasorsOut, List.take_zero, List.map_nil, writeFrom_nil, Nat.add_zero]
  have loop := forLoop_iff (phasorsOut c s) _ n (fun j _ => outputPhasor_step c s j) u
  rwa [start, forall_lt_iff_le] at loop

def analogsOut (c : Configuration F) (s : OutputState F) (j : ℕ) : OutputState F where
  buffers := { s.buffers with
    analogBuffer := writeFrom s.buffers.analogBuffer s.m ((c.analog.take j).map Analog.value) }
  k := s.k
  m := s.m + j

theorem outputAnalog_step (c : Configuration F) (s : OutputState F) (j : ℕ) (u : OutputState F) :
    outputAnalog c j (analogsOut c s j) = some u ↔
      j < c.analog.length ∧ analogsOut c s (j + 1) = u := by
  cases han : c.analog[j]? with
  | none =>
    have hlen := List.getElem?_eq_none_iff.1 han
    simp [outputAnalog, Nat.not_lt.2 hlen]
  | some an =>
    have hlen := (List.getElem?_eq_some_iff.1 han).choose
    have length : s.m + ((c.analog.take j).map Analog.value).length = s.m + j := by
      simp [Nat.min_eq_left (le_of_lt hlen)]
    simp only [outputAnalog, han, Option.bind_eq_bind, Option.bind_some, Option.some.injEq, hlen,
      true_and, analogsOut, update_writeFrom _ length, ← take_succ_map _ han, Nat.add_assoc]

theorem outputAnalogs_iff (c : Configuration F) (s : OutputState F) (n : ℕ) (u : OutputState F) :
    forLoop (outputAnalog c) n s = some u ↔ n ≤ c.analog.length ∧ analogsOut c s n = u := by
  have start : analogsOut c s 0 = s := by
    simp only [analogsOut, List.take_zero, List.map_nil, writeFrom_nil, Nat.add_zero]
  have loop := forLoop_iff (analogsOut c s) _ n (fun j _ => outputAnalog_step c s j) u
  rwa [start, forall_lt_iff_le] at loop

def recordsOut (buffers : OutputBuffers F) (cs : List (Configuration F)) : OutputState F where
  buffers :=
    { timestamp := buffers.timestamp
      freqBuffer := writeFrom buffers.freqBuffer 0 (cs.map Configuration.frequency)
      rocofBuffer := writeFrom buffers.rocofBuffer 0 (cs.map Configuration.rocof)
      phasorsMagBuffer :=
        writeFrom buffers.phasorsMagBuffer 0 (cs.flatMap Configuration.magnitudes)
      phasorsAngBuffer := writeFrom buffers.phasorsAngBuffer 0 (cs.flatMap Configuration.angles)
      analogBuffer := writeFrom buffers.analogBuffer 0 (cs.flatMap Configuration.values) }
  k := (cs.flatMap Configuration.magnitudes).length
  m := (cs.flatMap Configuration.values).length

theorem angles_length (cs : List (Configuration F)) :
    (cs.flatMap Configuration.angles).length = (cs.flatMap Configuration.magnitudes).length := by
  simp [List.length_flatMap, Configuration.angles, Configuration.magnitudes]

theorem writeFrom_front {α : Type} (a : ℕ → α) {values : List α} {k : ℕ} (hk : values.length = k)
    (values' : List α) :
    writeFrom (writeFrom a 0 values) k values' = writeFrom a 0 (values ++ values') := by
  rw [← writeFrom_append, Nat.zero_add, hk]

theorem recordsOut_concat (buffers : OutputBuffers F) (cs : List (Configuration F))
    {c : Configuration F} (phasors : c.layout.phasors ≤ c.phasor.length)
    (analogs : c.layout.analogs ≤ c.analog.length) :
    let s := recordsOut buffers cs
    let next := { s with buffers := { s.buffers with
      freqBuffer := Function.update s.buffers.freqBuffer cs.length c.frequency
      rocofBuffer := Function.update s.buffers.rocofBuffer cs.length c.rocof } }
    analogsOut c (phasorsOut c next c.layout.phasors) c.layout.analogs =
      recordsOut buffers (cs ++ [c]) := by
  have freq : 0 + (cs.map Configuration.frequency).length = cs.length := by simp
  have rocof : 0 + (cs.map Configuration.rocof).length = cs.length := by simp
  have mags : c.magnitudes.length = c.layout.phasors := by
    simp [Configuration.magnitudes, Nat.min_eq_left phasors]
  have vals : c.values.length = c.layout.analogs := by
    simp [Configuration.values, Nat.min_eq_left analogs]
  have record : ∀ g : Configuration F → List F, (cs ++ [c]).flatMap g = cs.flatMap g ++ g c := by
    intro g
    simp
  simp only [analogsOut, phasorsOut, recordsOut, update_writeFrom _ freq, update_writeFrom _ rocof,
    record, List.map_append, List.map_cons, List.map_nil, List.length_append, mags, vals,
    ← writeFrom_front _ rfl]
  rw [angles_length]
  rfl

theorem outputPmu_step (self : Client F) (buffers : OutputBuffers F) (i : ℕ) (u : OutputState F) :
    outputPmu self i (recordsOut buffers (self.configuration.take i)) = some u ↔
      (∃ c, self.configuration[i]? = some c ∧ c.layout.phasors ≤ c.phasor.length ∧
          c.layout.analogs ≤ c.analog.length) ∧
        recordsOut buffers (self.configuration.take (i + 1)) = u := by
  cases hc : self.configuration[i]? with
  | none => simp [outputPmu, hc]
  | some c =>
    have hlen := (List.getElem?_eq_some_iff.1 hc).choose
    have length : (self.configuration.take i).length = i := by
      simp [Nat.min_eq_left (le_of_lt hlen)]
    have next : self.configuration.take (i + 1) = self.configuration.take i ++ [c] := by
      rw [List.take_add_one, hc]
      rfl
    have phasors : c.numberOfPhasors.toNat = c.layout.phasors := rfl
    have analogs : c.numberOfAnalogs.toNat = c.layout.analogs := rfl
    simp only [outputPmu, hc, Option.bind_eq_bind, Option.bind_some, phasors, analogs,
      bind_iff (outputPhasors_iff c _ _), outputAnalogs_iff, next, Option.some.injEq,
      exists_eq_left', and_assoc]
    refine and_congr_right (fun hp => and_congr_right (fun ha => ?_))
    have concat := recordsOut_concat buffers (self.configuration.take i) hp ha
    simp only [length] at concat
    rw [← concat]

theorem outputChannels_iff (self : Client F) (buffers : OutputBuffers F) (u : OutputState F) :
    outputChannels self buffers = some u ↔
      (∀ i < self.numPmu.toNat, ∃ c, self.configuration[i]? = some c ∧
          c.layout.phasors ≤ c.phasor.length ∧ c.layout.analogs ≤ c.analog.length) ∧
        recordsOut buffers (self.configuration.take self.numPmu.toNat) = u := by
  have start : recordsOut buffers (self.configuration.take 0) = ⟨buffers, 0, 0⟩ := by
    simp [recordsOut]
  have loop := forLoop_iff (fun i => recordsOut buffers (self.configuration.take i)) _
    self.numPmu.toNat (fun i _ => outputPmu_step self buffers i) u
  rwa [start] at loop

/-- What the call puts into the caller's arrays. -/
theorem outputDataStream_of_arraysInside {self : Client F} {time : ParsedTime F}
    (inside : self.ArraysInside) (stamp : self.dataTimeStamp.parsedTime = some time)
    (buffers : OutputBuffers F) : outputDataStream self buffers =
      some (recordsOut { buffers with timestamp := time }
        (self.configuration.take self.numPmu.toNat)).buffers := by
  have counts : ∀ i < self.numPmu.toNat, ∃ c, self.configuration[i]? = some c ∧
      c.layout.phasors ≤ c.phasor.length ∧ c.layout.analogs ≤ c.analog.length := by
    intro i hi
    obtain ⟨c, hc, hp, ha, _⟩ := inside i hi
    exact ⟨c, hc, hp, ha⟩
  have channels := (outputChannels_iff self { buffers with timestamp := time } _).2 ⟨counts, rfl⟩
  simp [outputDataStream, stamp, channels]

theorem recordsOut_frequency (buffers : OutputBuffers F) {cs : List (Configuration F)} {i : ℕ}
    {c : Configuration F} (h : cs[i]? = some c) :
    (recordsOut buffers cs).buffers.freqBuffer i = c.frequency ∧
      (recordsOut buffers cs).buffers.rocofBuffer i = c.rocof := by
  have frequency : (cs.map Configuration.frequency)[i]? = some c.frequency := by simp [h]
  have rocof : (cs.map Configuration.rocof)[i]? = some c.rocof := by simp [h]
  have freqs := writeFrom_get buffers.freqBuffer 0 frequency
  have rocofs := writeFrom_get buffers.rocofBuffer 0 rocof
  rw [Nat.zero_add] at freqs rocofs
  exact ⟨freqs, rocofs⟩

/-- Where the phasors of PMU `i` begin in the caller's arrays. -/
def phasorIndex (cs : List (Configuration F)) (i : ℕ) : ℕ :=
  ((cs.take i).map (fun c => c.numberOfPhasors.toNat)).sum

theorem magnitudes_length {cs : List (Configuration F)}
    (inside : ∀ c ∈ cs, c.layout.phasors ≤ c.phasor.length) :
    (cs.flatMap Configuration.magnitudes).length =
      (cs.map (fun c => c.numberOfPhasors.toNat)).sum := by
  rw [List.length_flatMap]
  congr 1
  refine List.map_congr_left (fun c hc => ?_)
  have le := inside c hc
  simp only [Configuration.magnitudes, List.length_map, List.length_take]
  exact Nat.min_eq_left le

theorem magnitudes_get {c : Configuration F} {j : ℕ} {ph : Phasor F} (hj : j < c.layout.phasors)
    (hph : c.phasor[j]? = some ph) :
    c.magnitudes[j]? = some ph.magnitude ∧ c.angles[j]? = some ph.angle := by
  have taken : (c.phasor.take c.layout.phasors)[j]? = some ph := by
    rw [List.getElem?_take_of_lt hj, hph]
  rw [Configuration.magnitudes, Configuration.angles, List.getElem?_map, List.getElem?_map, taken]
  exact ⟨rfl, rfl⟩

theorem values_get {c : Configuration F} {j : ℕ} {an : Analog F} (hj : j < c.layout.analogs)
    (han : c.analog[j]? = some an) : c.values[j]? = some an.value := by
  rw [Configuration.values, List.getElem?_map, List.getElem?_take_of_lt hj, han]
  rfl

theorem recordsOut_phasor (buffers : OutputBuffers F) {cs : List (Configuration F)}
    (inside : ∀ c ∈ cs, c.layout.phasors ≤ c.phasor.length) {i j : ℕ} {c : Configuration F}
    {ph : Phasor F} (hc : cs[i]? = some c) (hj : j < c.numberOfPhasors.toNat)
    (hph : c.phasor[j]? = some ph) :
    (recordsOut buffers cs).buffers.phasorsMagBuffer (phasorIndex cs i + j) = ph.magnitude ∧
      (recordsOut buffers cs).buffers.phasorsAngBuffer (phasorIndex cs i + j) = ph.angle := by
  obtain ⟨mag, ang⟩ := magnitudes_get hj hph
  have index : ((cs.take i).flatMap Configuration.magnitudes).length = phasorIndex cs i :=
    magnitudes_length (fun c hc => inside c (List.mem_of_mem_take hc))
  have mags := writeFrom_get buffers.phasorsMagBuffer 0
    (flatMap_get Configuration.magnitudes hc mag)
  have angs := writeFrom_get buffers.phasorsAngBuffer 0
    (flatMap_get Configuration.angles hc ang)
  rw [angles_length, index, Nat.zero_add] at angs
  rw [index, Nat.zero_add] at mags
  exact ⟨mags, angs⟩

section
variable {D : Type} [Platform F D]

theorem storeData_arraysInside {self : Client F} (inside : self.ArraysInside) (t : Temps F)
    (m : ℕ → UInt8) : (self.storeData t m).ArraysInside := by
  intro i hi
  have hi : i < self.numPmu.toNat := hi
  obtain ⟨c, hc, counts⟩ := inside i hi
  refine ⟨_, storeData_get hi hc t m, ?_⟩
  obtain ⟨phasors, analogs, digitals⟩ :=
    blockAt_counts c m (self.blockTemps m t i) (self.blockBase i)
  simp only [Configuration.CountsInside, Configuration.layout, phasors, analogs, digitals,
    blockAt_phasors, blockAt_analogs, blockAt_digitals, sweep_length]
  exact counts

section
variable {t : Temps F} {self self' : Client F} {b : ByteMemory.Memory} {bufferSize : ℤ}
  (run : parseDataFrame t self b bufferSize = some (0, self')) (buffers : OutputBuffers F)
include run

/-- After an accepted data frame the call hands out the records that were stored. -/
theorem outputDataStream_accepted :
    ∃ time, outputDataStream self' buffers = some (recordsOut { buffers with timestamp := time }
      (self'.configuration.take self'.numPmu.toNat)).buffers := by
  obtain ⟨n, _, _, _, inside, _, rfl⟩ := parseDataFrame_accepted run
  have stamp : ∃ time, (self.storeData t b.byte).dataTimeStamp.parsedTime = some time := ⟨_, rfl⟩
  obtain ⟨time, htime⟩ := stamp
  exact ⟨time,
    outputDataStream_of_arraysInside (storeData_arraysInside inside t b.byte) htime buffers⟩

theorem outputDataStream_frequency : ∃ out, outputDataStream self' buffers = some out ∧
    ∀ i < self'.numPmu.toNat, ∀ c', self'.configuration[i]? = some c' →
      out.freqBuffer i = c'.frequency ∧ out.rocofBuffer i = c'.rocof := by
  obtain ⟨time, handed⟩ := outputDataStream_accepted run buffers
  refine ⟨_, handed, fun i hi c' hc' => recordsOut_frequency _ ?_⟩
  rw [List.getElem?_take_of_lt hi, hc']

theorem outputDataStream_phasor : ∃ out, outputDataStream self' buffers = some out ∧
    ∀ i < self'.numPmu.toNat, ∀ c', self'.configuration[i]? = some c' →
      ∀ j < c'.numberOfPhasors.toNat, ∀ ph, c'.phasor[j]? = some ph →
        out.phasorsMagBuffer (phasorIndex self'.configuration i + j) = ph.magnitude ∧
          out.phasorsAngBuffer (phasorIndex self'.configuration i + j) = ph.angle := by
  obtain ⟨time, handed⟩ := outputDataStream_accepted run buffers
  refine ⟨_, handed, fun i hi c' hc' j hj ph hph => ?_⟩
  have inside : self'.ArraysInside := by
    obtain ⟨_, _, _, _, inside, _, rfl⟩ := parseDataFrame_accepted run
    exact storeData_arraysInside inside t b.byte
  have counts : ∀ c ∈ self'.configuration.take self'.numPmu.toNat,
      c.layout.phasors ≤ c.phasor.length := by
    intro c hc
    obtain ⟨k, hk⟩ := List.getElem?_of_mem hc
    have lt : k < self'.numPmu.toNat := by
      have := (List.getElem?_eq_some_iff.1 hk).choose
      rw [List.length_take] at this
      omega
    obtain ⟨d, hd, phasors, _⟩ := inside k lt
    rw [List.getElem?_take_of_lt lt, hd] at hk
    exact Option.some.inj hk ▸ phasors
  have index : phasorIndex (self'.configuration.take self'.numPmu.toNat) i =
      phasorIndex self'.configuration i := by
    rw [phasorIndex, phasorIndex, List.take_take, Nat.min_eq_left (le_of_lt hi)]
  rw [← index]
  refine recordsOut_phasor _ counts ?_ hj hph
  rw [List.getElem?_take_of_lt hi, hc']

end
end

end Khorjin
