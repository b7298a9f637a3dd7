import Khorjin.ArrayInvariant
import Khorjin.ReceiveBounds

set_option autoImplicit false

/-!
# Reporting after a run

Whether the calls that report find the time records that they read. The records are
allocated by the first accepted frame of their kind.
-/
namespace Khorjin
open ByteMemory LoopRules RunRules
variable {F D : Type} [Platform F D]

inductive ReceiveCall (F : Type)
  | getConfiguration (timeStamp : UInt64) (reads : List SocketRead)
  | getDataStream (temps : Temps F) (reads : List SocketRead)

def receiveCall (self : Client F) : ReceiveCall F → Option (Option ℤ × Client F)
  | .getConfiguration timeStamp reads => do
    let (_, r, self, _) ← getConfiguration self timeStamp reads
    some (r, self)
  | .getDataStream temps reads => do
    let (r, self, _) ← getDataStream temps self reads
    some (some r, self)

/-- The bytes that end the read loop are a frame that passes the five checks. -/
def DeliversFrame (sync : UInt8) (idcode : UInt16) (reads : List SocketRead) : Prop :=
  ∃ data rest, readLoop reads = some (data.length, data, rest) ∧
    FramePasses sync idcode (Memory.zeroFilled BUFER_LENGTH data).byte data.length

namespace ReceiveCall

def DeliversConfiguration (idcode : UInt16) : ReceiveCall F → Prop
  | .getConfiguration _ reads => DeliversFrame 0x31 idcode reads
  | .getDataStream _ _ => False

def DeliversData (idcode : UInt16) : ReceiveCall F → Prop
  | .getConfiguration _ _ => False
  | .getDataStream _ reads => DeliversFrame 0x01 idcode reads

end ReceiveCall

theorem received_of_readLoop {reads rest : List SocketRead} {n : ℤ} {data : List UInt8}
    (loop : readLoop reads = some (n, data, rest)) (h2 : 2 ≤ n) :
    ∃ x : Received, n = x.size ∧ x.buffer = Memory.zeroFilled BUFER_LENGTH data ∧
      ∀ (sync : UInt8) (idcode : UInt16), DeliversFrame sync idcode reads ↔
        x.Passes sync idcode := by
  rcases readLoop_cases loop with ⟨rfl, _⟩ | ⟨rfl, _, fits⟩
  · omega
  · refine ⟨.ofBytes data (by omega) fits, rfl, rfl, fun sync idcode => ?_⟩
    constructor
    · rintro ⟨data', rest', loop', pass⟩
      obtain ⟨_, rfl, rfl⟩ : _ ∧ data = data' ∧ rest = rest' := by
        simpa only [loop, Option.some.injEq, Prod.mk.injEq] using loop'
      exact pass
    · intro pass
      exact ⟨data, rest, loop, pass⟩

theorem receiveCall_times {self self' : Client F} {c : ReceiveCall F} {r : Option ℤ}
    (h : receiveCall self c = some (r, self')) :
    self'.idcode = self.idcode ∧
      (self'.configTimeStamp.parsedTime.isSome ↔
        self.configTimeStamp.parsedTime.isSome ∨ c.DeliversConfiguration self.idcode) ∧
      (self'.dataTimeStamp.parsedTime.isSome ↔
        self.dataTimeStamp.parsedTime.isSome ∨ c.DeliversData self.idcode) := by
  cases c with
  | getConfiguration timeStamp reads =>
    simp only [receiveCall, getConfiguration, receiveConfiguration, Option.bind_eq_bind,
      Option.bind_eq_some_iff] at h
    obtain ⟨_, ⟨⟨n, data, rest⟩, loop, ⟨_, _⟩, ⟨⟨r', s⟩, parse, hs⟩, hc⟩, hr⟩ := h
    cases hs
    cases hc
    cases hr
    obtain ⟨x, rfl, hbuffer, delivers⟩ :=
      received_of_readLoop loop (parseConfigurationFrame_two_le parse)
    rw [← hbuffer] at parse
    have step : handle _ (.configurationFrame x) = some (r', s) := parse
    simp only [ReceiveCall.DeliversConfiguration, ReceiveCall.DeliversData, delivers, or_false]
    rcases handle_cases step with ⟨_, pass, _, rfl⟩ | ⟨_, fail, rfl⟩
    · have pass : x.Passes 0x31 self.idcode := pass
      exact ⟨store_idcode pass, by simp [pass, Event.store, Client.storeConfiguration, timeAt],
        Iff.rfl⟩
    · have fail : ¬ x.Passes 0x31 self.idcode := fail
      refine ⟨rfl, ?_, Iff.rfl⟩
      simp only [fail, or_false]
      rfl
  | getDataStream temps reads =>
    simp only [receiveCall, getDataStream, Option.bind_eq_bind, Option.bind_eq_some_iff] at h
    obtain ⟨_, ⟨⟨n, data, rest⟩, loop, ⟨r', s⟩, parse, hs⟩, hr⟩ := h
    cases hs
    cases hr
    obtain ⟨x, rfl, hbuffer, delivers⟩ := received_of_readLoop loop (parseDataFrame_two_le parse)
    rw [← hbuffer] at parse
    have step : handle _ (.dataFrame x temps) = some (r', s) := parse
    simp only [ReceiveCall.DeliversConfiguration, ReceiveCall.DeliversData, delivers, or_false]
    rcases handle_cases step with ⟨_, pass, _, rfl⟩ | ⟨_, fail, rfl⟩
    · have pass : x.Passes 0x01 self.idcode := pass
      exact ⟨rfl, Iff.rfl, by simp [pass, Event.store, Client.storeData, timeAt]⟩
    · have fail : ¬ x.Passes 0x01 self.idcode := fail
      refine ⟨rfl, Iff.rfl, ?_⟩
      simp only [fail, or_false]
      rfl

theorem run_times {self final : Client F} {calls : List (ReceiveCall F)}
    {returned : List (Option ℤ)} (h : run receiveCall self calls = some (returned, final)) :
    (final.configTimeStamp.parsedTime.isSome ↔ self.configTimeStamp.parsedTime.isSome ∨
        ∃ c ∈ calls, c.DeliversConfiguration self.idcode) ∧
      (final.dataTimeStamp.parsedTime.isSome ↔ self.dataTimeStamp.parsedTime.isSome ∨
        ∃ c ∈ calls, c.DeliversData self.idcode) := by
  constructor
  · apply run_raised_iff (fun s : Client F => s.idcode = self.idcode) _ _ rfl _ h
    intro s c r t hid step
    obtain ⟨hid', config, _⟩ := receiveCall_times step
    rw [hid] at hid' config
    exact ⟨hid', config⟩
  · apply run_raised_iff (fun s : Client F => s.idcode = self.idcode) _ _ rfl _ h
    intro s c r t hid step
    obtain ⟨hid', _, data⟩ := receiveCall_times step
    rw [hid] at hid' data
    exact ⟨hid', data⟩

/-- The two calls that report the configuration find their time record. Where the arrays
    hold what the counts promise, nothing else stops them. -/
structure Client.ReportsConfiguration (c : Client F) : Prop where
  allocated : c.configTimeStamp.parsedTime.isSome
  getConf_pdc : (getConf_pdc c).isSome
  printConfiguration : c.ArraysInside → (printConfiguration c).isSome

structure Client.ReportsData (c : Client F) : Prop where
  allocated : c.dataTimeStamp.parsedTime.isSome
  printDataStream : c.ArraysInside → (printDataStream c).isSome
  outputDataStream : c.ArraysInside → ∀ buffers, (outputDataStream c buffers).isSome

theorem reportsConfiguration_iff (self : Client F) :
    self.ReportsConfiguration ↔ self.configTimeStamp.parsedTime.isSome := by
  constructor
  · exact fun h => h.allocated
  · intro h
    obtain ⟨time, htime⟩ := Option.isSome_iff_exists.1 h
    constructor
    case allocated => exact h
    case getConf_pdc => simp [getConf_pdc, htime]
    case printConfiguration =>
      intro inside
      simpa [printConfiguration, htime] using printChannels_isSome inside _

theorem reportsData_iff (self : Client F) :
    self.ReportsData ↔ self.dataTimeStamp.parsedTime.isSome := by
  constructor
  · exact fun h => h.allocated
  · intro h
    obtain ⟨time, htime⟩ := Option.isSome_iff_exists.1 h
    constructor
    case allocated => exact h
    case printDataStream =>
      intro inside
      simpa [printDataStream, htime] using printData_isSome inside _
    case outputDataStream =>
      intro inside buffers
      obtain ⟨s, hs⟩ := Option.isSome_iff_exists.1
        (outputChannels_isSome inside { buffers with timestamp := time })
      simp [outputDataStream, htime, hs]

/-- After any sequence of calls on a connected client the reporting calls find their time
    records exactly when a configuration, and a data frame, has been accepted before. -/
theorem reporting_safe_iff_frames_accepted {pmuIdCode : ℤ} {timeoutInMs : UInt32}
    {bufferSnd bufferRcv : List UInt8} {calls : List (ReceiveCall F)}
    {returned : List (Option ℤ)} {final : Client F}
    (h : run receiveCall (Client.fresh pmuIdCode timeoutInMs bufferSnd bufferRcv) calls =
      some (returned, final)) :
    (final.ReportsConfiguration ↔
        ∃ c ∈ calls, c.DeliversConfiguration (UInt16.ofInt pmuIdCode)) ∧
      (final.ReportsData ↔ ∃ c ∈ calls, c.DeliversData (UInt16.ofInt pmuIdCode)) := by
  obtain ⟨config, data⟩ := run_times h
  rw [reportsConfiguration_iff, reportsData_iff, config, data]
  have unset : ¬ (none : Option (ParsedTime F)).isSome := by simp
  exact ⟨or_iff_right unset, or_iff_right unset⟩

section
attribute [local instance] ExactRational.platform

def chunkOf (l : List UInt8) (nonempty : 0 < l.length) (fits : l.length ≤ BUFER_LENGTH) :
    SocketRead := .received ⟨l, nonempty, fits⟩

def badFrames : List (ReceiveCall ℚ) :=
  [.getConfiguration 0 [chunkOf [0, 0] (by decide) (by decide)],
    .getDataStream ⟨0, 0⟩ [chunkOf [0, 0] (by decide) (by decide)]]

/-- Both frames fail the checksum, and each of the four calls that a program makes after
    them follows a null pointer. -/
theorem bad_frames_leave_null_times :
    ∃ returned final, run receiveCall freshClient badFrames = some (returned, final) ∧
      final.ArraysInside ∧ printConfiguration final = none ∧ getConf_pdc final = none ∧
      printDataStream final = none ∧ ∀ buffers, outputDataStream final buffers = none := by
  have observed : (run receiveCall freshClient badFrames).map (fun r =>
      (r.2.numPmu, r.2.configTimeStamp.parsedTime, r.2.dataTimeStamp.parsedTime)) =
        some (0, none, none) := by
    decide +kernel
  obtain ⟨⟨returned, final⟩, h, values⟩ := Option.map_eq_some_iff.1 observed
  obtain ⟨numPmu, config, data⟩ : final.numPmu = 0 ∧ final.configTimeStamp.parsedTime = none ∧
      final.dataTimeStamp.parsedTime = none := by
    simpa only [Prod.mk.injEq] using values
  refine ⟨returned, final, h, ?_, ?_, ?_, ?_, ?_⟩
  · intro i hi
    rw [numPmu] at hi
    exact absurd hi (Nat.not_lt_zero i)
  · simp [printConfiguration, config]
  · simp [getConf_pdc, config]
  · simp [printDataStream, data]
  · simp [outputDataStream, data]

def plainData : List UInt8 :=
  appendChk [0xAA, 0x01, 0, 22, 0, 7, 0, 0, 0, 1, 0, 0, 0, 0, 0, 0, 0, 0, 0, 0]

def goodFrames : List (ReceiveCall ℚ) :=
  [.getConfiguration 0 [chunkOf spoiltConfiguration (by decide) spoiltConfiguration_fits],
    .getConfiguration 0 [.again, chunkOf plainConfiguration (by decide) plainConfiguration_fits],
    .getDataStream ⟨0, 0⟩ [chunkOf plainData (by decide) (by decide)]]

theorem good_frames_allow_reports :
    ∃ returned final, run receiveCall freshClient goodFrames = some (returned, final) ∧
      returned = [none, some 0, some 0] ∧ final.ReportsConfiguration ∧ final.ReportsData := by
  have observed : (run receiveCall freshClient goodFrames).map Prod.fst =
      some [none, some 0, some 0] := by
    decide +kernel
  obtain ⟨⟨returned, final⟩, h, values⟩ := Option.map_eq_some_iff.1 observed
  obtain ⟨config, data⟩ := reporting_safe_iff_frames_accepted h
  refine ⟨returned, final, h, values, config.2 ?_, data.2 ?_⟩
  · exact ⟨_, List.mem_cons_of_mem _ List.mem_cons_self, plainConfiguration, [], rfl,
      by decide +kernel⟩
  · exact ⟨_, List.mem_cons_of_mem _ (List.mem_cons_of_mem _ List.mem_cons_self), plainData, [],
      rfl, by decide +kernel⟩

end
end Khorjin
