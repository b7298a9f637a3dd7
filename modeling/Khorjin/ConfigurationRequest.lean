import Khorjin.ClientCalls
import Khorjin.ConfigurationRoundTrip
import Khorjin.FrameExtent

set_option autoImplicit false

/-!
# A configuration request over an ordered channel

The client calls `stopTransmission` and then `getConfiguration` on a PMU that
streams data frames. Commands and frames travel whole and in order, one channel in
each direction, and the two sides take their steps in any order.
-/
namespace Khorjin
open ByteMemory LoopRules RunRules
variable {F D : Type} [Platform F D]

inductive ClientPhase
  | connected
  | stopSent
  | waiting
  | returned (result : Option ℤ)
deriving DecidableEq

structure Link (F : Type) where
  client : Client F
  phase : ClientPhase
  commands : List (List UInt8)
  frames : List (List UInt8)
  streaming : Bool
  /-- Every data frame that was put on the channel so far. -/
  dataSent : List (List UInt8)

def Link.start (self : Client F) (inFlight : List (List UInt8)) : Link F :=
  ⟨self, .connected, [], inFlight, true, inFlight⟩

def commandWord (l : List UInt8) : UInt16 := word16 (fun i => l.getD i 0) 14

def SendableFrame (sync : UInt8) (idcode : UInt16) (l : List UInt8) : Prop :=
  (2 ≤ l.length ∧ l.length ≤ BUFER_LENGTH) ∧
    FramePasses sync idcode (Memory.zeroFilled BUFER_LENGTH l).byte l.length

instance (sync : UInt8) (idcode : UInt16) (l : List UInt8) :
    Decidable (SendableFrame sync idcode l) :=
  inferInstanceAs (Decidable (_ ∧ _))

def Link.obey (answer : List UInt8) (s : Link F) (command : List UInt8) : Link F :=
  if commandWord command = 0x01 then { s with streaming := false }
  else if commandWord command = 0x05 then { s with frames := s.frames ++ [answer] }
  else s

theorem commandWord_commandFrame (self : Client F) (timeStamp : UInt64) (cmd : UInt8) :
    commandWord (commandFrame self timeStamp cmd) = cmd.toUInt16 := by
  have high : (commandFrame self timeStamp cmd).getD 14 0 = 0 := rfl
  have low : (commandFrame self timeStamp cmd).getD (14 + 1) 0 = cmd := rfl
  rw [commandWord, word16, high, low]
  simp

def Client.installed (self : Client F) : UInt16 × List (Configuration F) × UInt32 × UInt16 :=
  (self.numPmu, self.configuration, self.timeBase, self.dataRate)

def Client.withAnswer (self : Client F) (l : List UInt8) : Client F :=
  self.storeConfiguration (Memory.zeroFilled BUFER_LENGTH l).byte l.length

structure AnswerFrame (idcode : UInt16) (l : List UInt8) : Prop where
  sendable : SendableFrame 0x31 idcode l
  readable : RecordsDefined (Memory.zeroFilled BUFER_LENGTH l)

theorem receiveConfiguration_answer {self : Client F} {l : List UInt8}
    (frame : AnswerFrame self.idcode l) :
    receiveConfiguration self l l.length = some (some 0, (self.fillRcv l).withAnswer l) := by
  obtain ⟨⟨⟨h2, fits⟩, pass⟩, readable⟩ := frame
  have lt := pass.size_lt
  have run : parseConfigurationFrame (self.fillRcv l) (Memory.zeroFilled BUFER_LENGTH l) l.length =
      some (0, (self.fillRcv l).withAnswer l) := by
    refine (parseConfigurationFrame_iff _ _ l.length h2 (by omega) _).2 (.inl ⟨⟨?_, ?_, ?_, ?_, ?_⟩,
      rfl⟩)
    · exact Memory.zeroFilled_defined l fits
    · exact pass
    · exact Memory.zeroFilled_defined l (by decide)
    · exact four_le_of_passes h2 pass
    · exact readable
  simp [receiveConfiguration, run]

/-- The commands not yet taken, the PMU's flag and the frames on their way, by the client's
    phase, until the client has read a frame. `sent` are the data frames sent so far. -/
inductive Stage (answer : List UInt8) (sent : List (List UInt8)) :
    ClientPhase → List UInt16 → Bool → List (List UInt8) → Prop
  | connected : Stage answer sent .connected [] true sent
  | stopSent : Stage answer sent .stopSent [0x01] true sent
  | stopObeyed : Stage answer sent .stopSent [] false sent
  | bothSent : Stage answer sent .waiting [0x01, 0x05] true sent
  | requestSent : Stage answer sent .waiting [0x05] false sent
  | answered : Stage answer sent .waiting [] false (sent ++ [answer])

namespace Stage
variable {answer l : List UInt8} {sent frames : List (List UInt8)} {phase : ClientPhase}
  {words : List UInt16} {streaming : Bool}

theorem stop (h : Stage answer sent .connected words streaming frames) :
    Stage answer sent .stopSent (words ++ [0x01]) streaming frames := by
  cases h
  exact .stopSent

theorem request (h : Stage answer sent .stopSent words streaming frames) :
    Stage answer sent .waiting (words ++ [0x05]) streaming frames := by
  cases h with
  | stopSent => exact .bothSent
  | stopObeyed => exact .requestSent

theorem obey {word : UInt16} (h : Stage answer sent phase (word :: words) streaming frames) :
    (word = 0x01 ∧ Stage answer sent phase words false frames) ∨
      (word = 0x05 ∧ Stage answer sent phase words streaming (frames ++ [answer])) := by
  cases h with
  | stopSent => exact .inl ⟨rfl, .stopObeyed⟩
  | bothSent => exact .inl ⟨rfl, .requestSent⟩
  | requestSent => exact .inr ⟨rfl, .answered⟩

theorem read (h : Stage answer sent .waiting words streaming (l :: frames)) :
    (sent = [] → streaming = false ∧ l = answer) ∧ (sent ≠ [] → l ∈ sent) := by
  cases sent with
  | nil =>
    cases h
    exact ⟨fun _ => ⟨rfl, rfl⟩, fun h => absurd rfl h⟩
  | cons d sent =>
    have first : l = d := by
      generalize hf : l :: frames = fs at h
      cases h with
      | bothSent => exact (List.cons.inj hf).1
      | requestSent => exact (List.cons.inj hf).1
      | answered => exact (List.cons.inj hf).1
    rw [first]
    exact ⟨fun empty => absurd empty (List.cons_ne_nil d sent), fun _ => List.mem_cons_self⟩

end Stage

section
variable {client : Client F} {answer : List UInt8} {s t : Link F} {u : Unit}

end

section
attribute [local instance] ExactRational.platform

end
end Khorjin
