import Khorjin.ReportingRuns

set_option autoImplicit false

/-!
# What the return values tell

A call that has received a frame is to return 0 when the frame is installed and
something else when it is rejected. A call that ends without a return statement
returns an arbitrary value, which is none here.
-/
namespace Khorjin
open ByteMemory LoopRules RunRules
variable {F D : Type} [Platform F D]

/-- What the socket delivers to one call: no data a number of times, then two bytes or
    more. -/
structure Delivery where
  waits : ℕ
  chunk : Chunk
  two_le : 2 ≤ chunk.data.length

namespace Delivery

def reads (d : Delivery) : List SocketRead :=
  List.replicate d.waits .again ++ [.received d.chunk]

def received (d : Delivery) : Received := .ofBytes d.chunk.data d.two_le d.chunk.fits

theorem readLoop_reads (d : Delivery) :
    readLoop d.reads = some ((d.chunk.data.length : ℤ), d.chunk.data, []) := by
  unfold reads
  induction d.waits with
  | zero => rfl
  | succ k ih => exact ih

end Delivery

inductive FrameCall (F : Type)
  | getConfiguration (timeStamp : UInt64) (d : Delivery)
  | getDataStream (temps : Temps F) (d : Delivery)

namespace FrameCall

def call : FrameCall F → ReceiveCall F
  | .getConfiguration timeStamp d => .getConfiguration timeStamp d.reads
  | .getDataStream temps d => .getDataStream temps d.reads

def event : FrameCall F → Event F
  | .getConfiguration _ d => .configurationFrame d.received
  | .getDataStream temps d => .dataFrame d.received temps

def prepare (self : Client F) : FrameCall F → Client F
  | .getConfiguration timeStamp d =>
    (requestConfiguration self timeStamp).2.fillRcv d.chunk.data
  | .getDataStream _ d => self.fillRcv d.chunk.data

def returned (r : ℤ) : FrameCall F → Option ℤ
  | .getConfiguration _ _ => if r = 0 then some 0 else none
  | .getDataStream _ _ => some r

def IsConfiguration : FrameCall F → Prop
  | .getConfiguration _ _ => True
  | .getDataStream _ _ => False

end FrameCall

def perform (self : Client F) (c : FrameCall F) : Option (Option ℤ × Client F) :=
  receiveCall self c.call

/-- The call returns a value: 0 when the frame passes the checks of its parser and is
    installed, and another one when it is rejected. -/
def TellsOutcome (self : Client F) (c : FrameCall F) : Prop :=
  ∃ v s, perform self c = some (some v, s) ∧
    (v = 0 ↔ c.event.Passes self.idcode ∧ s = c.event.store (c.prepare self)) ∧
    (v ≠ 0 ↔ ¬ c.event.Passes self.idcode)

/-- A configuration that is received passes the checks, and nothing that passes them sends
    the parser out of the receive buffer or an array. -/
structure Conclusive (client : Client F) (c : FrameCall F) : Prop where
  passes : c.IsConfiguration → c.event.Passes client.idcode
  readable : c.event.Passes client.idcode → c.event.Readable client

theorem prepare_idcode (self : Client F) (c : FrameCall F) :
    (c.prepare self).idcode = self.idcode := by
  cases c with
  | getConfiguration timeStamp d => rfl
  | getDataStream temps d => rfl

theorem prepare_readable (self : Client F) (c : FrameCall F) :
    c.event.Readable (c.prepare self) ↔ c.event.Readable self := by
  cases c with
  | getConfiguration timeStamp d => rfl
  | getDataStream temps d => rfl

/-- A call is its parser run on the bytes received, up to what is done with the result. -/
theorem perform_eq (self : Client F) (c : FrameCall F) :
    perform self c =
      (handle (c.prepare self) c.event).map (fun r => (c.returned r.1, r.2)) := by
  cases c with
  | getConfiguration timeStamp d =>
    simp only [perform, FrameCall.call, receiveCall, getConfiguration, d.readLoop_reads,
      receiveConfiguration, Option.bind_eq_bind, Option.bind_some, Option.bind_assoc]
    exact Option.map_eq_bind.symm
  | getDataStream temps d =>
    simp only [perform, FrameCall.call, receiveCall, getDataStream, d.readLoop_reads,
      Option.bind_eq_bind, Option.bind_some, Option.bind_assoc]
    exact Option.map_eq_bind.symm

theorem perform_iff (self : Client F) (c : FrameCall F) (r : Option ℤ × Client F) :
    perform self c = some r ↔
      (c.event.Passes self.idcode ∧ c.event.Readable self ∧
        (some 0, c.event.store (c.prepare self)) = r) ∨
      (¬ c.event.Passes self.idcode ∧ (c.returned (-1), c.prepare self) = r) := by
  have accepted : c.returned 0 = some 0 := by cases c <;> rfl
  simp only [perform_eq, Option.map_eq_some_iff, handle_iff, prepare_idcode, prepare_readable]
  constructor
  · rintro ⟨_, ⟨pass, read, rfl⟩ | ⟨fail, rfl⟩, hr⟩
    · rw [accepted] at hr
      exact .inl ⟨pass, read, hr⟩
    · exact .inr ⟨fail, hr⟩
  · rintro (⟨pass, read, rfl⟩ | ⟨fail, rfl⟩)
    · exact ⟨_, .inl ⟨pass, read, rfl⟩, by rw [accepted]⟩
    · exact ⟨_, .inr ⟨fail, rfl⟩, rfl⟩

theorem returned_reject_iff (c : FrameCall F) :
    (c.returned (-1)).isSome ↔ ¬ c.IsConfiguration := by
  cases c with
  | getConfiguration timeStamp d => simp [FrameCall.returned, FrameCall.IsConfiguration]
  | getDataStream temps d => simp [FrameCall.returned, FrameCall.IsConfiguration]

theorem returned_reject {c : FrameCall F} {v : ℤ} (h : c.returned (-1) = some v) : v = -1 := by
  cases c with
  | getConfiguration timeStamp d => simp [FrameCall.returned] at h
  | getDataStream temps d => exact (Option.some.inj h).symm

theorem conclusive_iff (self : Client F) (c : FrameCall F) :
    Conclusive self c ↔ ∃ r s, perform self c = some (r, s) ∧ r.isSome := by
  constructor
  · intro h
    by_cases pass : c.event.Passes self.idcode
    · exact ⟨_, _, (perform_iff self c _).2 (.inl ⟨pass, h.readable pass, rfl⟩), rfl⟩
    · exact ⟨_, _, (perform_iff self c _).2 (.inr ⟨pass, rfl⟩),
        (returned_reject_iff c).2 (fun config => pass (h.passes config))⟩
  · rintro ⟨r, s, h, defined⟩
    rcases (perform_iff self c _).1 h with ⟨pass, read, _⟩ | ⟨fail, hr⟩
    · exact ⟨fun _ => pass, fun _ => read⟩
    · cases hr
      exact ⟨fun config => absurd config ((returned_reject_iff c).1 defined),
        fun pass => absurd pass fail⟩

theorem outcome_of_returned {self s : Client F} {c : FrameCall F} {v : ℤ}
    (h : perform self c = some (some v, s)) :
    (v = 0 ↔ c.event.Passes self.idcode ∧ s = c.event.store (c.prepare self)) ∧
      (v ≠ 0 ↔ ¬ c.event.Passes self.idcode) := by
  rcases (perform_iff self c _).1 h with ⟨pass, _, hr⟩ | ⟨fail, hr⟩
  · cases hr
    simp [pass]
  · obtain ⟨rejected, _⟩ := Prod.mk.inj hr
    obtain rfl := returned_reject rejected
    simp [fail]

theorem tellsOutcome_iff (self : Client F) (c : FrameCall F) :
    TellsOutcome self c ↔ Conclusive self c := by
  rw [conclusive_iff]
  constructor
  · rintro ⟨v, s, h, _⟩
    exact ⟨some v, s, h, rfl⟩
  · rintro ⟨r, s, h, defined⟩
    obtain ⟨v, rfl⟩ := Option.isSome_iff_exists.1 defined
    exact ⟨v, s, h, outcome_of_returned h⟩

/-- A call tells its outcome exactly when it is conclusive. The calls of a run all tell
    theirs, and all return a value, exactly when each is conclusive where it is made. -/
theorem return_values_tell_iff (self : Client F) (calls : List (FrameCall F)) :
    (∀ c, TellsOutcome self c ↔ Conclusive self c) ∧
      (Along perform TellsOutcome self calls ↔ Along perform Conclusive self calls) ∧
      ((∃ returned final, run perform self calls = some (returned, final) ∧
          ∀ r ∈ returned, r.isSome) ↔ Along perform Conclusive self calls) :=
  ⟨tellsOutcome_iff self, along_congr tellsOutcome_iff self calls,
    run_outcomes_iff conclusive_iff self calls⟩

section
attribute [local instance] ExactRational.platform

def deliver (l : List UInt8) (two_le : 2 ≤ l.length) (fits : l.length ≤ BUFER_LENGTH) : Delivery :=
  ⟨0, ⟨l, Nat.lt_of_lt_of_le Nat.two_pos two_le, fits⟩, two_le⟩

theorem spoiltConfiguration_two_le : 2 ≤ spoiltConfiguration.length := by decide

def spoiltRequest : FrameCall ℚ :=
  .getConfiguration 0 (deliver spoiltConfiguration spoiltConfiguration_two_le
    spoiltConfiguration_fits)

/-- A configuration whose first byte is spoilt is rejected, and nothing is returned. -/
theorem spoilt_configuration_returns_nothing :
    ¬ spoiltRequest.event.Passes freshClient.idcode ∧
      (perform freshClient spoiltRequest).map Prod.fst = some none ∧
      ¬ TellsOutcome freshClient spoiltRequest := by
  have fail : ¬ (Received.ofBytes spoiltConfiguration spoiltConfiguration_two_le
      spoiltConfiguration_fits).Passes 0x31 7 := by
    decide +kernel
  refine ⟨fail, ?_, fun tells => ?_⟩
  · rw [(perform_iff freshClient spoiltRequest _).2 (.inr ⟨fail, rfl⟩)]
    rfl
  · obtain ⟨v, s, h, _⟩ := tells
    rw [(perform_iff freshClient spoiltRequest _).2 (.inr ⟨fail, rfl⟩)] at h
    cases h

theorem plainData_two_le : 2 ≤ plainData.length := by decide

theorem plainData_fits : plainData.length ≤ BUFER_LENGTH := by decide

def conclusiveCalls : List (FrameCall ℚ) :=
  [.getConfiguration 0 (deliver plainConfiguration plainConfiguration_two_le
      plainConfiguration_fits),
    .getDataStream ⟨0, 0⟩ (deliver plainData plainData_two_le plainData_fits),
    .getDataStream ⟨0, 0⟩ (deliver plainConfiguration plainConfiguration_two_le
      plainConfiguration_fits)]

theorem conclusive_calls_tell :
    (∃ final, run perform freshClient conclusiveCalls =
        some ([some 0, some 0, some (-1)], final)) ∧
      Along perform TellsOutcome freshClient conclusiveCalls := by
  have observed : (run perform freshClient conclusiveCalls).map Prod.fst =
      some [some 0, some 0, some (-1)] := by
    decide +kernel
  obtain ⟨⟨returned, final⟩, h, rfl⟩ := Option.map_eq_some_iff.1 observed
  obtain ⟨_, tells, defined⟩ := return_values_tell_iff freshClient conclusiveCalls
  exact ⟨⟨final, h⟩, tells.2 (defined.1 ⟨_, final, h, by decide⟩)⟩

end
end Khorjin
