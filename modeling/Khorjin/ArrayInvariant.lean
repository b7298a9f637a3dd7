import Khorjin.ChannelOutput
import Khorjin.ClientRuns
import Khorjin.RecordWalk

set_option autoImplicit false

/-!
# The channel arrays along a run

Which configuration frames leave a client whose channel arrays match the counts.
-/
namespace Khorjin
open ByteMemory LoopRules RunRules
variable {F D : Type} [Platform F D]

/-- Every record of a configuration frame, at the place where the parser looks for it,
    follows the counts of the first one. -/
def CountsFollowFirst (m : ℕ → UInt8) : Prop :=
  ∀ i < (word16 m 18).toNat, (declaredAt m (recordPos m 20 i)).FollowsCounts (declaredAt m 20)

instance (m : ℕ → UInt8) : Decidable (CountsFollowFirst m) :=
  inferInstanceAs (Decidable (∀ i < _, _))

theorem storeConfiguration_arraysMatch_iff (self : Client F) (m : ℕ → UInt8) (n : ℕ) :
    (self.storeConfiguration m n).ArraysMatch ↔ CountsFollowFirst m := by
  have length : (self.storeConfiguration m n).configuration.length = (word16 m 18).toNat := by
    simp [Client.storeConfiguration, configurationAt]
  have records : (self.storeConfiguration m n).configuration = (List.range (word16 m 18).toNat).map
      (fun i => recordAt (declaredAt m 20) m (recordPos m 20 i)) := rfl
  rw [Client.ArraysMatch, records, List.forall_mem_map]
  simp only [recordAt_arraysMatch_iff, List.mem_range, CountsFollowFirst, List.length_map,
    List.length_range]
  exact and_iff_right rfl

theorem blockAt_arraysMatch {c : Configuration F} (h : c.ArraysMatch) (m : ℕ → UInt8)
    (t : Temps F) (p : ℕ) : (blockAt c m t p).ArraysMatch := by
  obtain ⟨phasors, analogs, digitals⟩ := blockAt_counts c m t p
  rw [Configuration.ArraysMatch, phasors, analogs, digitals, blockAt_phasors, blockAt_analogs,
    blockAt_digitals, sweep_length, sweep_length, sweep_length]
  exact h

theorem storeData_forall {P : Configuration F → Prop} {self : Client F}
    (h : ∀ c ∈ self.configuration, P c) (t : Temps F) (m : ℕ → UInt8)
    (keep : ∀ c t p, P c → P (blockAt c m t p)) :
    ∀ c ∈ (self.storeData t m).configuration, P c := by
  intro c' hc'
  obtain ⟨i, hi⟩ := List.getElem?_of_mem hc'
  rw [Client.storeData, sweep_get, Option.map_eq_some_iff] at hi
  obtain ⟨c, hc, rfl⟩ := hi
  have before := h c (List.mem_of_getElem? hc)
  split_ifs
  · exact keep c _ _ before
  · exact before

theorem storeData_arraysMatch {self : Client F} (h : self.ArraysMatch) (t : Temps F)
    (m : ℕ → UInt8) : (self.storeData t m).ArraysMatch := by
  constructor
  · exact (sweep_length _ _ _).trans h.1
  · exact storeData_forall h.2 t m (fun c t p exactly => blockAt_arraysMatch exactly m t p)

/-- No index into the records or the channel arrays leaves its array, in the block loop of
    `parseDataFrame` on any data and in the two reporting loops. -/
def Client.IndexSafe (self : Client F) : Prop :=
  (∀ (m : ℕ → UInt8) (t : Temps F), (forLoop (parsePmu (Memory.total m)) self.numPmu.toNat
    ⟨self.configuration, 14, t⟩).isSome) ∧
  (∀ buffers, (outputChannels self buffers).isSome) ∧ ∀ lines, (printChannels self lines).isSome

theorem get_bind_isSome {α β : Type} {l : List α} {j n : ℕ} (hj : j < n) (h : n ≤ l.length)
    (k : α → Option β) (defined : ∀ x, (k x).isSome) : (l[j]?.bind k).isSome := by
  rw [List.getElem?_eq_getElem (by omega)]
  exact defined _

theorem outputChannels_isSome {self : Client F} (inside : self.ArraysInside)
    (buffers : OutputBuffers F) : (outputChannels self buffers).isSome := by
  apply forLoop_isSome
  intro i hi s
  obtain ⟨c, hc, phasors, analogs, _⟩ := inside i hi
  simp only [outputPmu, hc, Option.bind_eq_bind, Option.bind_some]
  apply bind_isSome
  · exact forLoop_isSome (fun j hj s => get_bind_isSome hj phasors _ (fun _ => rfl)) _
  · exact fun s => forLoop_isSome (fun j hj s => get_bind_isSome hj analogs _ (fun _ => rfl)) s

theorem channelLoops_isSome {σ : Type} {c : Configuration F} (inside : c.CountsInside)
    {phasor analog digital : ℕ → σ → Option σ}
    (phasors : ∀ j < c.phasor.length, ∀ s, (phasor j s).isSome)
    (analogs : ∀ j < c.analog.length, ∀ s, (analog j s).isSome)
    (digitals : ∀ j < c.digital.length, ∀ s, (digital j s).isSome) (s : σ) :
    ((forLoop phasor c.numberOfPhasors.toNat s).bind fun s =>
      (forLoop analog c.numberOfAnalogs.toNat s).bind fun s =>
        forLoop digital c.numberOfDigitals.toNat s).isSome := by
  obtain ⟨hphasors, hanalogs, hdigitals⟩ := inside
  apply bind_isSome
  · exact forLoop_isSome (fun j hj => phasors j (Nat.lt_of_lt_of_le hj hphasors)) s
  intro s
  apply bind_isSome
  · exact forLoop_isSome (fun j hj => analogs j (Nat.lt_of_lt_of_le hj hanalogs)) s
  · exact fun s => forLoop_isSome (fun j hj => digitals j (Nat.lt_of_lt_of_le hj hdigitals)) s

theorem printChannels_isSome {self : Client F} (inside : self.ArraysInside)
    (lines : List (ConfigurationLine F)) : (printChannels self lines).isSome := by
  apply forLoop_isSome
  intro i hi s
  obtain ⟨c, hc, counts⟩ := inside i hi
  simp only [printPmu, hc, Option.bind_eq_bind, Option.bind_some]
  exact channelLoops_isSome counts
    (fun j hj s => get_bind_isSome hj (le_refl _) _ (fun _ => rfl))
    (fun j hj s => get_bind_isSome hj (le_refl _) _ (fun _ => rfl))
    (fun j hj s => get_bind_isSome hj (le_refl _) _ (fun _ => rfl)) _

theorem printData_isSome {self : Client F} (inside : self.ArraysInside)
    (lines : List (DataLine F)) : (printData self lines).isSome := by
  apply forLoop_isSome
  intro i hi s
  obtain ⟨c, hc, counts⟩ := inside i hi
  simp only [printDataPmu, hc, Option.bind_eq_bind, Option.bind_some]
  exact channelLoops_isSome counts
    (fun j hj s => get_bind_isSome hj (le_refl _) _ (fun _ => rfl))
    (fun j hj s => get_bind_isSome hj (le_refl _) _ (fun _ => rfl))
    (fun j hj s => get_bind_isSome hj (le_refl _) _ (fun _ => rfl)) _

theorem indexSafe_of_arraysInside {self : Client F} (inside : self.ArraysInside) :
    self.IndexSafe := by
  refine ⟨fun m t => ?_, outputChannels_isSome inside, printChannels_isSome inside⟩
  have run := (dataLoop_iff (Memory.total m) self t _).2
    ⟨⟨inside, Memory.total_defined m _ _⟩, rfl⟩
  rw [run]
  rfl

theorem handle_arraysMatch {self self' : Client F} {e : Event F} {r : ℤ}
    (h : self.ArraysMatch) (step : handle self e = some (r, self'))
    (follow : ∀ x, e = .configurationFrame x → x.Passes 0x31 self.idcode →
      CountsFollowFirst x.buffer.byte) : self'.ArraysMatch := by
  rcases handle_cases step with ⟨_, pass, _, rfl⟩ | ⟨_, _, rfl⟩
  · cases e with
    | configurationFrame x =>
      exact (storeConfiguration_arraysMatch_iff self _ _).2 (follow x rfl pass)
    | dataFrame x temps => exact storeData_arraysMatch h temps _
  · exact h

theorem run_arraysMatch {self final : Client F} {events : List (Event F)} {returned : List ℤ}
    (start : self.ArraysMatch) (h : run handle self events = some (returned, final))
    (follow : ∀ x, .configurationFrame x ∈ events → x.Passes 0x31 self.idcode →
      CountsFollowFirst x.buffer.byte) : final.ArraysMatch := by
  have inv : final.ArraysMatch ∧ final.idcode = self.idcode := by
    apply run_invariant (fun s => s.ArraysMatch ∧ s.idcode = self.idcode) _ ⟨start, rfl⟩ h
    rintro s e he r t ⟨exactly, hid⟩ step
    refine ⟨handle_arraysMatch exactly step ?_, (handle_idcode step).trans hid⟩
    rintro x rfl pass
    rw [hid] at pass
    exact follow x he pass
  exact inv.1

theorem run_records {P : Configuration F → Prop}
    (installed : ∀ first m p, P (recordAt first m p))
    (keep : ∀ c m t p, P c → P (blockAt c m t p)) {self final : Client F}
    {events : List (Event F)} {returned : List ℤ} (start : ∀ c ∈ self.configuration, P c)
    (h : run handle self events = some (returned, final)) : ∀ c ∈ final.configuration, P c := by
  apply run_invariant (fun s => ∀ c ∈ s.configuration, P c) _ start h
  intro s e _ r u records step
  rcases handle_cases step with ⟨_, _, _, rfl⟩ | ⟨_, _, rfl⟩
  · cases e with
    | configurationFrame x =>
      intro c hc
      obtain ⟨i, _, rfl⟩ := List.mem_map.1 hc
      exact installed _ _ _
    | dataFrame x temps => exact storeData_forall records temps _ (fun c => keep c _)
  · exact records

theorem fresh_arraysMatch (pmuIdCode : ℤ) (timeoutInMs : UInt32)
    (bufferSnd bufferRcv : List UInt8) :
    (Client.fresh pmuIdCode timeoutInMs bufferSnd bufferRcv : Client F).ArraysMatch :=
  ⟨rfl, fun _ h => absurd h List.not_mem_nil⟩

/-- Along a run from a fresh client all arrays match their counts, and no loop leaves an
    array, exactly when the records of every accepted configuration frame follow the
    counts of the first record. -/
theorem arrays_match_along_run_iff {pmuIdCode : ℤ} {timeoutInMs : UInt32}
    {bufferSnd bufferRcv : List UInt8} {events : List (Event F)} {returned : List ℤ}
    {final : Client F}
    (h : run handle (Client.fresh pmuIdCode timeoutInMs bufferSnd bufferRcv) events =
      some (returned, final)) :
    (∀ before after, events = before ++ after → ∀ returned' s,
      run handle (Client.fresh pmuIdCode timeoutInMs bufferSnd bufferRcv) before =
        some (returned', s) → s.ArraysMatch ∧ s.IndexSafe) ↔
    ∀ x, .configurationFrame x ∈ events → x.Passes 0x31 (UInt16.ofInt pmuIdCode) →
      CountsFollowFirst x.buffer.byte := by
  constructor
  · intro always x hx pass
    obtain ⟨before, after, rfl⟩ := List.append_of_mem hx
    have reached : before ++ .configurationFrame x :: after =
        (before ++ [.configurationFrame x]) ++ after := by simp
    rw [reached, run_append_iff] at h
    obtain ⟨_, s, _, hs, _⟩ := h
    have exactly := (always _ after reached _ s hs).1
    obtain ⟨_, t, _, ht, hlast, _⟩ := (run_append_iff _ _ _ _ _ _).1 hs
    obtain ⟨_, _, _, step, hnil, _⟩ := (run_cons_iff _ _ _ _ _ _).1 hlast
    cases hnil
    have hid : t.idcode = UInt16.ofInt pmuIdCode := run_idcode ht
    rcases handle_cases step with ⟨_, _, _, rfl⟩ | ⟨_, fail, _⟩
    · exact (storeConfiguration_arraysMatch_iff t _ _).1 exactly
    · rw [hid] at fail
      exact absurd pass fail
  · rintro follow before after rfl returned' s hs
    have exactly : s.ArraysMatch := by
      apply run_arraysMatch (fresh_arraysMatch _ _ _ _) hs
      intro x hx pass
      exact follow x (List.mem_append_left after hx) pass
    exact ⟨exactly, indexSafe_of_arraysInside exactly.arraysInside⟩

section
attribute [local instance] ExactRational.platform

def equalCounts : List UInt8 :=
  appendChk ([0xAA, 0x31, 0, 124, 0, 7, 0, 0, 0, 0, 0, 0, 0, 0, 0, 0, 3, 0xE8, 0, 2] ++
    ([65] ++ List.replicate 15 32 ++ [0, 7, 0, 0, 0, 1, 0, 0, 0, 0] ++
      [86, 65] ++ List.replicate 14 32 ++ [0, 0, 0, 1] ++ [0, 1, 0, 1]) ++
    ([66] ++ List.replicate 15 32 ++ [0, 8, 0, 0, 0, 1, 0, 0, 0, 0] ++
      [86, 66] ++ List.replicate 14 32 ++ [0, 0, 0, 1] ++ [0, 1, 0, 1]) ++
    [0, 50])

def unequalCounts : List UInt8 :=
  appendChk ([0xAA, 0x31, 0, 104, 0, 7, 0, 0, 0, 0, 0, 0, 0, 0, 0, 0, 3, 0xE8, 0, 2] ++
    ([65] ++ List.replicate 15 32 ++ [0, 7, 0, 0, 0, 0, 0, 0, 0, 0] ++ [0, 1, 0, 1]) ++
    ([66] ++ List.replicate 15 32 ++ [0, 8, 0, 0, 0, 1, 0, 0, 0, 0] ++
      [86, 65] ++ List.replicate 14 32 ++ [0, 0, 0, 1] ++ [0, 1, 0, 1]) ++
    [0, 50])

def receivedEqual : Received := .ofBytes equalCounts (by decide +kernel) (by decide +kernel)
def receivedUnequal : Received := .ofBytes unequalCounts (by decide +kernel) (by decide +kernel)

def freshClient : Client ℚ := Client.fresh 7 0 [] []

/-- The client that has accepted the second frame holds an empty phasor array for its PMU
    with one phasor, and the print loop is no longer defined. -/
theorem unequal_counts_leave_short_arrays :
    ∃ final, run handle freshClient [.configurationFrame receivedUnequal] = some ([0], final) ∧
      final.configuration.map (fun c => (c.numberOfPhasors, c.phasor.length)) =
        [(0, 0), (1, 0)] ∧
      ¬ final.ArraysMatch ∧ ¬ final.IndexSafe := by
  refine ⟨freshClient.storeConfiguration receivedUnequal.buffer.byte 104,
    by decide +kernel, by decide +kernel, by decide +kernel, ?_⟩
  rintro ⟨_, _, print⟩
  exact absurd (print []) (by decide +kernel)

theorem equal_counts_keep_arrays_matched :
    (freshClient.storeConfiguration receivedEqual.buffer.byte 124).ArraysMatch ∧
      (freshClient.storeConfiguration receivedEqual.buffer.byte 124).IndexSafe := by
  have h : run handle freshClient [.configurationFrame receivedEqual] =
      some ([0], freshClient.storeConfiguration receivedEqual.buffer.byte 124) := by
    decide +kernel
  have follow : CountsFollowFirst receivedEqual.buffer.byte := by decide +kernel
  refine (arrays_match_along_run_iff h).2 ?_ _ [] (List.append_nil _).symm _ _ h
  intro x hx _
  obtain rfl : x = receivedEqual := by simpa using hx
  exact follow

end
end Khorjin
