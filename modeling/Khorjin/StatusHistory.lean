import Mathlib.Data.List.DropRight
import Khorjin.InstalledRecords
import Khorjin.StatusWord

set_option autoImplicit false

/-!
# The status in every reachable state

A flag of the STAT word and the status of a digital channel are only ever set, until a
configuration frame replaces the records. What they are is therefore a matter of all data
frames accepted since then, and not of the last one.
-/
namespace Khorjin
open ByteMemory LoopRules RunRules
variable {F D : Type} [Platform F D]

inductive StatFlag
  | dataModified
  | configToChange
  | pmuIsTriggered
  | dataSortingByArrivalorTime
  | pmuIsNOTSync

namespace StatFlag

def bit : StatFlag → ℕ
  | dataModified => 9
  | configToChange => 10
  | pmuIsTriggered => 11
  | dataSortingByArrivalorTime => 12
  | pmuIsNOTSync => 13

def get {F : Type} (c : Configuration F) : StatFlag → Bool
  | dataModified => c.dataModified
  | configToChange => c.configToChange
  | pmuIsTriggered => c.pmuIsTriggered
  | dataSortingByArrivalorTime => c.dataSortingByArrivalorTime
  | pmuIsNOTSync => c.pmuIsNOTSync

end StatFlag

def Event.wordAt (p : ℕ) (e : Event F) : UInt16 := word16 e.received.buffer.byte p

/-- The data frames behind the last configuration frame. -/
def sinceConfiguration (accepted : List (Event F)) : List (Event F) :=
  accepted.rtakeWhile Event.isDataFrame

def lastWord (data : List (Event F)) (p : ℕ) : UInt16 :=
  (data.getLast?.map (Event.wordAt p)).getD 0

def Raised (data : List (Event F)) (p k : ℕ) : Prop :=
  ∃ e ∈ data, (e.wordAt p).toNat.testBit k = true

instance (data : List (Event F)) (p k : ℕ) : Decidable (Raised data p k) :=
  inferInstanceAs (Decidable (∃ e ∈ data, _))

/-- What the masks of `parseSTATWord` make of the last word, and which bits were ever set. -/
structure StatusSince (data : List (Event F)) (p : ℕ) (c : Configuration F) : Prop where
  statWord : c.statWord = lastWord data p
  triggerReason : c.triggerReason.toNat = slice (lastWord data p) 0 1 +
    16 * slice (lastWord data p) 4 1
  unlockTime : c.unlockTime.toNat = slice (lastWord data p) 4 1 +
    16 * slice (lastWord data p) 8 1
  pmuTimeQuality : c.pmuTimeQuality.toNat = slice (lastWord data p) 6 1 +
    16 * slice (lastWord data p) 10 1
  dataError : c.dataError.toNat = slice (lastWord data p) 14 1
  flag : ∀ f : StatFlag, f.get c = true ↔ Raised data p f.bit
  digital : ∀ j < c.layout.digitals, ∀ dg, c.digital[j]? = some dg →
    dg.digitalWord = lastWord data (p + c.layout.digitalOffset + 2 * j) ∧
      ∀ k : Fin 16, (dg.channel k).status = true ↔
        Raised data (p + c.layout.digitalOffset + 2 * j) k

structure ReportedSince (data : List (Event F)) (p : ℕ) (s : Status) : Prop where
  dataError : s.dataError.toNat = slice (lastWord data p) 14 1
  pmuIsNOTSync : s.pmuIsNOTSync = if Raised data p 13 then 1 else 0
  pmuIsTriggered : s.pmuIsTriggered = if Raised data p 11 then 1 else 0
  dataModified : s.dataModified = if Raised data p 9 then 1 else 0
  pmuTimeQuality : s.pmuTimeQuality.toNat = slice (lastWord data p) 6 1 +
    16 * slice (lastWord data p) 10 1
  unlockTime : s.unlockTime.toNat = slice (lastWord data p) 4 1 +
    16 * slice (lastWord data p) 8 1
  triggerReason : s.triggerReason.toNat = slice (lastWord data p) 0 1 +
    16 * slice (lastWord data p) 4 1

theorem lastWord_concat (data : List (Event F)) (e : Event F) (p : ℕ) :
    lastWord (data ++ [e]) p = e.wordAt p := by
  simp [lastWord]

theorem slice_lastWord_nil (p start len : ℕ) :
    slice (lastWord ([] : List (Event F)) p) start len = 0 := by
  simp [lastWord, slice]

theorem raised_concat (data : List (Event F)) (e : Event F) (p k : ℕ) :
    Raised (data ++ [e]) p k ↔ Raised data p k ∨ (e.wordAt p).toNat.testBit k = true := by
  simp [Raised, or_and_right, exists_or]

theorem not_raised_nil (p k : ℕ) : ¬ Raised ([] : List (Event F)) p k := by
  rintro ⟨e, he, _⟩
  exact List.not_mem_nil he

theorem storeSTAT_flag (f : StatFlag) (c : Configuration F) (w : UInt16) :
    f.get (c.storeSTAT w) = true ↔ f.get c = true ∨ w.toNat.testBit f.bit = true := by
  obtain ⟨h9, h10, h11, h12, h13⟩ := flagWords_toNat w
  have set : ∀ (P : Prop) [Decidable P] (old : Bool),
      (if P then true else old) = true ↔ old = true ∨ P := by
    intro P _ old
    by_cases h : P <;> simp [h]
  cases f <;>
    simp only [StatFlag.get, StatFlag.bit, Configuration.storeSTAT, set, shiftedBit_iff h9,
      shiftedBit_iff h10, shiftedBit_iff h11, shiftedBit_iff h12, shiftedBit_iff h13]

theorem blockAt_flag (f : StatFlag) (c : Configuration F) (m : ℕ → UInt8) (t : Temps F) (p : ℕ) :
    f.get (blockAt c m t p) = f.get (c.storeSTAT (word16 m p)) := by
  cases f <;> simp [StatFlag.get, blockAt]

theorem storeWord_status (dg : Digital) (w : UInt16) (k : Fin 16) :
    ((dg.storeWord w).channel k).status = true ↔
      (dg.channel k).status = true ∨ w.toNat.testBit k = true := by
  simp only [Digital.storeWord, markBits_channel, k.isLt, true_and]
  by_cases h : w.toNat.testBit k = true <;> simp [h]

theorem blockAt_statusSince {data : List (Event F)} {p : ℕ} {c : Configuration F}
    (since : StatusSince data p c) (x : Received) (temps t : Temps F) :
    StatusSince (data ++ [.dataFrame x temps]) p (blockAt c x.buffer.byte t p) := by
  have last : ∀ q, lastWord (data ++ [.dataFrame x temps]) q = word16 x.buffer.byte q :=
    lastWord_concat data _
  obtain ⟨reason, unlock, quality, error⟩ := storeSTAT_fields (word16 x.buffer.byte p) c
  constructor
  case statWord => exact (last p).symm
  case triggerReason => rw [last]; exact reason
  case unlockTime => rw [last]; exact unlock
  case pmuTimeQuality => rw [last]; exact quality
  case dataError => rw [last]; exact error
  case flag =>
    intro f
    rw [blockAt_flag, storeSTAT_flag, since.flag, raised_concat]
    exact Iff.rfl
  case digital =>
    intro j hj dg hdg
    rw [layout_blockAt] at hj ⊢
    rw [blockAt_digitals, sweep_get_lt _ _ hj, Option.map_eq_some_iff] at hdg
    obtain ⟨old, hold, rfl⟩ := hdg
    refine ⟨(last _).symm, fun k => ?_⟩
    rw [storeWord_status, (since.digital j hj old hold).2 k, raised_concat]
    exact Iff.rfl

theorem digitalsAt_zero {first : Layout} {m : ℕ → UInt8} {p j : ℕ} {dg : Digital}
    (h : (digitalsAt first m p)[j]? = some dg) :
    dg.digitalWord = 0 ∧ ∀ k, (dg.channel k).status = false := by
  obtain ⟨i, _, rfl⟩ := List.mem_map.1 (List.mem_of_getElem? h)
  refine ⟨rfl, fun k => ?_⟩
  have name : ((Digital.zero.storeName m (p + 256 * i) 16).channel k).status = false := by
    simp [Digital.storeName, Digital.zero]
  simp only [Digital.storeDigunit, markBits_channel]
  split_ifs <;> exact name

theorem recordAt_statusSince (first : Layout) (m : ℕ → UInt8) (q p : ℕ) :
    StatusSince [] p (recordAt first m q : Configuration F) := by
  constructor
  case statWord => rfl
  case flag =>
    intro f
    have down : f.get (recordAt first m q : Configuration F) = false := by cases f <;> rfl
    simp [down, not_raised_nil]
  case digital =>
    intro j hj dg hdg
    have digitals : (recordAt first m q : Configuration F).digital =
        if (declaredAt m q).digitals ≠ 0 then
          digitalsAt first m (q + 26 + 16 * first.phasors + 16 * first.analogs) else [] := rfl
    rw [digitals] at hdg
    split_ifs at hdg
    · obtain ⟨word, status⟩ := digitalsAt_zero hdg
      exact ⟨word, fun k => by simp [status k, not_raised_nil]⟩
    · simp at hdg
  all_goals
    simp only [slice_lastWord_nil]
    rfl

theorem flag_toUInt8 {b : Bool} {P : Prop} [Decidable P] (h : b = true ↔ P) :
    b.toUInt8 = if P then 1 else 0 := by
  rw [← if_congr h rfl rfl]
  cases b <;> rfl

/-- Every PMU has its record, and the status in it comes from the data frames that `accepted`
    ends with. -/
def Client.StatusFrom (self : Client F) (accepted : List (Event F)) : Prop :=
  ∀ i < self.numPmu.toNat, ∃ c, self.configuration[i]? = some c ∧
    StatusSince (sinceConfiguration accepted) (self.blockBase i) c

theorem storeConfiguration_statusFrom (self : Client F) (accepted : List (Event F))
    (x : Received) : ((Event.configurationFrame x).store self).StatusFrom
      (accepted ++ [.configurationFrame x]) := by
  intro i hi
  have nothing : sinceConfiguration (accepted ++ [.configurationFrame x]) = [] :=
    List.rtakeWhile_concat_neg _ _ _ (by simp [Event.isDataFrame])
  have lt : i < (word16 x.buffer.byte 18).toNat := hi
  have entry : ((Event.configurationFrame x).store self).configuration[i]? =
      some (recordAt (declaredAt x.buffer.byte 20) x.buffer.byte
        (recordPos x.buffer.byte 20 i)) := by
    change (configurationAt x.buffer.byte 20 _)[i]? = _
    rw [configurationAt, List.getElem?_map, List.getElem?_range lt, Option.map_some]
  rw [nothing]
  exact ⟨_, entry, recordAt_statusSince _ _ _ _⟩

theorem storeData_statusFrom {self : Client F} {accepted : List (Event F)}
    (before : self.StatusFrom accepted) (x : Received) (temps : Temps F) :
    ((Event.dataFrame x temps).store self).StatusFrom (accepted ++ [.dataFrame x temps]) := by
  intro i hi
  have one : sinceConfiguration (accepted ++ [.dataFrame x temps]) =
      sinceConfiguration accepted ++ [.dataFrame x temps] :=
    List.rtakeWhile_concat_pos _ _ _ rfl
  have base : ((Event.dataFrame x temps).store self).blockBase i = self.blockBase i := by
    rw [Client.blockBase, Client.blockBase, Event.store,
      layouts_of_installation (storeData_installation self temps x.buffer.byte)]
  have lt : i < self.numPmu.toNat := hi
  obtain ⟨c, hc, since⟩ := before i lt
  rw [one, base]
  exact ⟨_, storeData_get lt hc temps x.buffer.byte, blockAt_statusSince since x temps _⟩

theorem run_statusFrom {pmuIdCode : ℤ} {timeoutInMs : UInt32} {bufferSnd bufferRcv : List UInt8}
    {events : List (Event F)} {returned : List ℤ} {final : Client F}
    (h : run handle (Client.fresh pmuIdCode timeoutInMs bufferSnd bufferRcv) events =
      some (returned, final)) : final.StatusFrom (acceptedOf events returned) := by
  refine run_history (· == 0) (fun accepted s => s.StatusFrom accepted) ?_ []
    (fun i hi => absurd hi (Nat.not_lt_zero i)) h
  intro accepted s e r t before step
  rcases handle_cases step with ⟨rfl, _, _, rfl⟩ | ⟨rfl, _, rfl⟩
  · cases e with
    | configurationFrame x => exact storeConfiguration_statusFrom s accepted x
    | dataFrame x temps => exact storeData_statusFrom before x temps
  · exact before

/-- The status that is handed out for a PMU, in every state that a fresh client can reach. A
    flag is up when the bit was set in any of the data frames accepted since the last
    configuration frame; all the rest is made of bits of the last STAT word. -/
theorem reachable_status {pmuIdCode : ℤ} {timeoutInMs : UInt32} {bufferSnd bufferRcv : List UInt8}
    {events : List (Event F)} {returned : List ℤ} {final : Client F}
    (h : run handle (Client.fresh pmuIdCode timeoutInMs bufferSnd bufferRcv) events =
      some (returned, final)) {i : ℕ} (hi : i < final.numPmu.toNat) :
    ∃ c s, final.configuration[i]? = some c ∧ outputDataStream_status final i = some s ∧
      StatusSince (sinceConfiguration (acceptedOf events returned)) (final.blockBase i) c ∧
      ReportedSince (sinceConfiguration (acceptedOf events returned)) (final.blockBase i) s := by
  obtain ⟨c, hc, since⟩ := run_statusFrom h i hi
  have status : outputDataStream_status final i = some ⟨c.dataError, c.pmuIsNOTSync.toUInt8,
      c.pmuIsTriggered.toUInt8, c.dataModified.toUInt8, c.pmuTimeQuality, c.unlockTime,
      c.triggerReason⟩ := by
    simp only [outputDataStream_status, hc, Option.bind_eq_bind, Option.bind_some]
  exact ⟨c, _, hc, status, since, since.dataError, flag_toUInt8 (since.flag .pmuIsNOTSync),
    flag_toUInt8 (since.flag .pmuIsTriggered), flag_toUInt8 (since.flag .dataModified),
    since.pmuTimeQuality, since.unlockTime, since.triggerReason⟩

section
attribute [local instance] ExactRational.platform

def statFrame (high : UInt8) : List UInt8 :=
  appendChk ([0xAA, 0x01, 0, 22, 0, 7, 0, 0, 0, 1, 0, 0, 0, 0] ++ [high, 0, 0, 0, 0, 0])

/-- The first frame has the trigger bit, the second has bit 14. -/
def triggeredEvents : List (Event ℚ) :=
  [.configurationFrame (.ofBytes plainConfiguration plainConfiguration_two_le
      plainConfiguration_fits),
    .dataFrame (.ofBytes (statFrame 0x08) (by decide) (by decide)) ⟨0, 0⟩,
    .dataFrame (.ofBytes (statFrame 0x40) (by decide) (by decide)) ⟨0, 0⟩]

theorem triggeredEvents_handled : (run handle (Client.fresh 7 0 [] []) triggeredEvents).map
    (fun r => (r.1, r.2.numPmu)) = some ([0, 0, 0], 1) := by
  decide +kernel

theorem triggeredEvents_words :
    lastWord (sinceConfiguration (acceptedOf triggeredEvents [0, 0, 0])) 14 = 0x4000 ∧
      Raised (sinceConfiguration (acceptedOf triggeredEvents [0, 0, 0])) 14 11 := by
  decide +kernel

theorem trigger_reported_after_the_next_frame :
    ∃ final s, run handle (Client.fresh 7 0 [] []) triggeredEvents = some ([0, 0, 0], final) ∧
      outputDataStream_status final 0 = some s ∧ s.pmuIsTriggered = 1 ∧ s.dataError.toNat = 1 := by
  obtain ⟨⟨returned, final⟩, h, result⟩ := Option.map_eq_some_iff.1 triggeredEvents_handled
  simp only [Prod.mk.injEq] at result
  obtain ⟨rfl, count⟩ := result
  obtain ⟨word, raised⟩ := triggeredEvents_words
  have first : 0 < final.numPmu.toNat := by
    rw [count]
    decide
  obtain ⟨_, s, _, handed, _, reported⟩ := reachable_status h first
  have base : final.blockBase 0 = 14 := rfl
  rw [base] at reported
  refine ⟨final, s, h, handed, ?_, ?_⟩
  · rw [reported.pmuIsTriggered, if_pos raised]
  · rw [reported.dataError, word]
    decide

end
end Khorjin
