import Khorjin.ConfigurationRequest
import Khorjin.ReceiveBounds
import Khorjin.ReceiverLoop

set_option autoImplicit false

/-!
# The example program

It asks for the configuration, prints it, and prints samples for ever. The value that
`getConfiguration` returns is ignored, and so is that of `getDataStream` in the loop.
-/
namespace Khorjin
open ByteMemory LoopRules RunRules
variable {F D : Type} [Platform F D]

/-- `main` behind its call of `connect`: the commands written, the listing, what has been
    printed in as many passes of the loop as there are local floats, and the state reached. -/
def exampleMain (self : Client F) (stopped requested started : UInt64) (passes : List (Temps F))
    (reads : List SocketRead) : Option (List (List UInt8) × List (ConfigurationLine F) ×
      List (List (DataLine F)) × Client F × List SocketRead) := do
  let (stop, self) := stopTransmission self stopped
  let (request, _, self, reads) ← getConfiguration self requested reads
  let listing ← printConfiguration self
  let (start, self) := startTransmission self started
  let (printed, self, reads) ← run examplePass (self, reads) passes
  some ([stop, request, start], listing, printed, self, reads)

theorem receiveConfiguration_rejected {self : Client F} {l : List UInt8}
    (two_le : 2 ≤ l.length) (fits : l.length ≤ BUFER_LENGTH)
    (rejected : ¬ FramePasses 0x31 self.idcode (receiveBuffer l) l.length) :
    receiveConfiguration self l l.length = some (none, self.fillRcv l) := by
  have parsed : parseConfigurationFrame (self.fillRcv l) (Memory.zeroFilled BUFER_LENGTH l)
      l.length = some (-1, self.fillRcv l) :=
    (handle_iff (self.fillRcv l) (.configurationFrame (.ofBytes l two_le fits)) _).2
      (.inr ⟨rejected, rfl⟩)
  simp [receiveConfiguration, parsed]

theorem answer_installs {self : Client F} {f : Cfg2} (known : self.idcode = f.idcode)
    (fits : f.size ≤ BUFER_LENGTH) (uniform : f.Uniform) :
    AnswerFrame self.idcode f.encode ∧ (self.withAnswer f.encode).Carries f ∧
      (self.withAnswer f.encode).idcode = f.idcode ∧
      handle self (f.event fits) = some (0, self.withAnswer f.encode) := by
  obtain ⟨installed, step, carries, _⟩ := handle_configuration known fits uniform
  rcases handle_cases step with ⟨_, passes, readable, rfl⟩ | ⟨impossible, _⟩
  · have sendable : SendableFrame 0x31 self.idcode f.encode :=
      ⟨⟨f.two_le, Cfg2.length_le fits⟩, passes⟩
    exact ⟨⟨sendable, readable.2⟩, carries, (handle_idcode step).trans known, step⟩
  · simp at impossible

theorem printConfiguration_withBuffers (self : Client F) (snd rcv : List UInt8) (running : Bool) :
    printConfiguration (self.withBuffers snd rcv running) = printConfiguration self := rfl

theorem exampleMain_rejected {self : Client F} {answer : List UInt8}
    {reads rest : List SocketRead} (fresh : self.configTimeStamp.parsedTime = none)
    (two_le : 2 ≤ answer.length) (fits : answer.length ≤ BUFER_LENGTH)
    (next : readLoop reads = some ((answer.length : ℤ), answer, rest))
    (rejected : ¬ FramePasses 0x31 self.idcode (receiveBuffer answer) answer.length)
    (stopped requested started : UInt64) (passes : List (Temps F)) :
    exampleMain self stopped requested started passes reads = none := by
  have received : receiveConfiguration
      (requestConfiguration (stopTransmission self stopped).2 requested).2 answer answer.length =
        some (none, (requestConfiguration (stopTransmission self stopped).2 requested).2.fillRcv
          answer) :=
    receiveConfiguration_rejected two_le fits rejected
  have unlisted : printConfiguration self = none := by
    rw [printConfiguration, fresh]
    rfl
  have unread : printConfiguration
      ((requestConfiguration (stopTransmission self stopped).2 requested).2.fillRcv answer) =
        none := unlisted
  simp only [exampleMain, getConfiguration, next, received, unread, Option.bind_eq_bind,
    Option.bind_some, Option.bind_none]

theorem exampleMain_answered {self : Client F} {answer : List UInt8}
    {reads rest : List SocketRead}
    (next : readLoop reads = some ((answer.length : ℤ), answer, rest))
    (valid : AnswerFrame self.idcode answer) (same : (self.withAnswer answer).idcode = self.idcode)
    (stopped requested started : UInt64) (passes : List (Temps F)) :
    exampleMain self stopped requested started passes reads =
      (printConfiguration (self.withAnswer answer)).bind fun listing =>
        (run examplePass ((self.withAnswer answer).withBuffers
            (clearedBuffer (commandFrame self started 0x02)) (clearedBuffer answer) true, rest)
          passes).bind fun r =>
            some ([commandFrame self stopped 0x01, commandFrame self requested 0x05,
              commandFrame self started 0x02], listing, r) := by
  have received : receiveConfiguration
      (requestConfiguration (stopTransmission self stopped).2 requested).2 answer answer.length =
        some (some 0, (self.withAnswer answer).withBuffers
          (clearedBuffer (commandFrame self requested 0x05)) (clearedBuffer answer) false) :=
    receiveConfiguration_answer valid
  have command := commandFrame_congr same started 0x02
  have begins : startTransmission ((self.withAnswer answer).withBuffers
      (clearedBuffer (commandFrame self requested 0x05)) (clearedBuffer answer) false) started =
        (commandFrame (self.withAnswer answer) started 0x02, (self.withAnswer answer).withBuffers
          (clearedBuffer (commandFrame (self.withAnswer answer) started 0x02))
          (clearedBuffer answer) true) := rfl
  simp only [exampleMain, getConfiguration, next, received, begins, command,
    printConfiguration_withBuffers, Option.bind_eq_bind, Option.bind_some]
  rfl

theorem answer_listed {self : Client F} {f : Cfg2} (known : self.idcode = f.idcode)
    (fits : f.size ≤ BUFER_LENGTH) (uniform : f.Uniform) :
    printConfiguration (self.withAnswer f.encode) = some (f.printed self.configTimeStamp) := by
  obtain ⟨_, carries, _, step⟩ := answer_installs known fits uniform
  obtain ⟨time, stamped, printed⟩ := handle_configuration_printed fits uniform step
  exact (printConfiguration_iff _ _).2 ⟨time, stamped, carries.arraysMatch.arraysInside, printed⟩

/-- The program runs through a null pointer when its request is answered by something that is
    not an acceptable configuration, and when the first data frame behind a configuration is
    damaged. If that frame is intact it prints the configuration that was sent, and then in
    each pass the sample of the frame that came in, or for a damaged one what it has printed
    in the pass before. -/
theorem example_program_prints {self : Client F} {reads : List SocketRead}
    (noListing : self.configTimeStamp.parsedTime = none)
    (noSample : self.dataTimeStamp.parsedTime = none) (stopped requested started : UInt64) :
    (∀ answer rest passes, 2 ≤ answer.length →
      readLoop reads = some ((answer.length : ℤ), answer, rest) →
      ¬ FramePasses 0x31 self.idcode (receiveBuffer answer) answer.length →
        exampleMain self stopped requested started passes reads = none) ∧
    ∀ (f : Cfg2) (d : Arrival F) (arrivals : List (Arrival F)), self.idcode = f.idcode →
      f.Uniform → (∀ x ∈ d :: arrivals, x.sent.frame.MadeFor f) → StaysOpen reads →
      pieces reads = f.encode :: (d :: arrivals).map Arrival.bytes →
      (d.intact = false → exampleMain self stopped requested started
        ((d :: arrivals).map (fun x => x.sent.temps)) reads = none) ∧
      (d.intact = true → ∃ printed final,
        exampleMain self stopped requested started ((d :: arrivals).map (fun x => x.sent.temps))
            reads =
          some ([commandFrame self stopped 0x01, commandFrame self requested 0x05,
            commandFrame self started 0x02],
            f.printed self.configTimeStamp, printed, final) ∧
        printed[0]? = some ((self.withAnswer f.encode).sampleLines d.sent) ∧
        ∀ k x, arrivals[k]? = some x → printed[k + 1]? =
          if x.intact then
            some (((self.withAnswer f.encode).hearAll ((d :: arrivals).take (k + 1))).sampleLines
              x.sent)
          else printed[k]?) := by
  constructor
  · intro answer rest passes two_le loop rejected
    have room : answer.length ≤ BUFER_LENGTH := by
      rcases readLoop_cases loop with ⟨impossible, _⟩ | ⟨_, _, room⟩
      · omega
      · exact room
    exact exampleMain_rejected noListing two_le room loop rejected stopped requested started passes
  intro f d arrivals known uniform made stays arrive
  obtain ⟨rest, loop, tail, stays'⟩ := readLoop_piece stays arrive
  have room := (piece_bounds (arrive ▸ List.mem_cons_self : f.encode ∈ pieces reads)).2
  have fits : f.size ≤ BUFER_LENGTH := by
    rw [← encode_length f]
    exact room
  obtain ⟨valid, carries, known', _⟩ := answer_installs known fits uniform
  have listed := answer_listed known fits uniform
  have unset : (self.withAnswer f.encode).dataTimeStamp.parsedTime = none := noSample
  have main := exampleMain_answered loop valid (known'.trans known.symm) stopped requested started
    ((d :: arrivals).map (fun x => x.sent.temps))
  have passes := exampleLoop_arrivals (clearedBuffer (commandFrame self started 0x02))
    (clearedBuffer f.encode) true unset (fun x hx => (made x hx).fits known' carries) stays' tail
  rw [main, listed, Option.bind_some]
  constructor
  · intro damaged
    rw [passes.1 damaged, Option.bind_none]
  · intro intact
    obtain ⟨printed, final, run, samples⟩ := passes.2 intact
    exact ⟨printed, final, by rw [run, Option.bind_some], samples⟩

section
attribute [local instance] ExactRational.platform

theorem voltageStation_nonempty : 0 < voltageStation.encode.length := by
  have := voltageStation.two_le
  omega

def stationReads : List SocketRead :=
  .received ⟨voltageStation.encode, voltageStation_nonempty,
    Cfg2.length_le voltageStation_size⟩ :: voltageReads

theorem stationReads_stayOpen : StaysOpen stationReads := by
  intro r hr
  rcases List.mem_cons.1 hr with rfl | hr
  · simp
  · exact voltageReads_stayOpen r hr

theorem station_program_prints :
    ∃ printed final, exampleMain (Client.fresh 7 0 [] [] : Client ℚ) 1 2 3
        [⟨0, 0⟩, ⟨0, 0⟩] stationReads =
          some ([commandFrame (Client.fresh 7 0 [] [] : Client ℚ) 1 0x01,
            commandFrame (Client.fresh 7 0 [] [] : Client ℚ) 2 0x05,
            commandFrame (Client.fresh 7 0 [] [] : Client ℚ) 3 0x02],
            voltageStation.printed Time.zero, printed, final) ∧
      printed[1]? = printed[0]? := by
  have known : (Client.fresh 7 0 [] [] : Client ℚ).idcode = voltageStation.idcode := by
    decide +kernel
  have arrive : pieces stationReads =
      voltageStation.encode :: [voltageIntact, voltageCut].map Arrival.bytes := rfl
  have made : ∀ x ∈ [voltageIntact, voltageCut], x.sent.frame.MadeFor voltageStation := by
    intro x hx
    rcases List.mem_cons.1 hx with rfl | hx
    · exact voltageFrame_madeFor 10 1
    · obtain rfl := List.mem_singleton.1 hx
      exact voltageFrame_madeFor 11 2
  have noListing : (Client.fresh 7 0 [] [] : Client ℚ).configTimeStamp.parsedTime = none := rfl
  have noSample : (Client.fresh 7 0 [] [] : Client ℚ).dataTimeStamp.parsedTime = none := rfl
  obtain ⟨_, answered⟩ := example_program_prints noListing noSample 1 2 3
  obtain ⟨printed, final, main, first, rest⟩ :=
    (answered voltageStation voltageIntact [voltageCut] known voltageStation_uniform made
      stationReads_stayOpen arrive).2 (by decide +kernel)
  exact ⟨printed, final, main, rest 0 voltageCut rfl⟩

end
end Khorjin
