import Khorjin.ConfigurationSlots
import Khorjin.RunRules

set_option autoImplicit false

/-!
# Runs of the client over received buffers

Received buffers are handed to the two frame parsers in any order. The contents
of the buffers are arbitrary.
-/
namespace Khorjin
open ByteMemory LoopRules RunRules
variable {F D : Type} [Platform F D]

structure Received where
  buffer : Memory
  size : ℕ
  two_le : 2 ≤ size
  size_le : size ≤ BUFER_LENGTH
  mapped : buffer.Defined 0 BUFER_LENGTH

namespace Received

def ofBytes (l : List UInt8) (two_le : 2 ≤ l.length) (size_le : l.length ≤ BUFER_LENGTH) :
    Received :=
  ⟨Memory.zeroFilled BUFER_LENGTH l, l.length, two_le, size_le,
    Memory.zeroFilled_defined l (le_refl _)⟩

def Passes (sync : UInt8) (idcode : UInt16) (r : Received) : Prop :=
  FramePasses sync idcode r.buffer.byte r.size

instance (sync : UInt8) (idcode : UInt16) (r : Received) : Decidable (r.Passes sync idcode) :=
  inferInstanceAs (Decidable (FramePasses _ _ _ _))

theorem size_lt (r : Received) : r.size < 2 ^ 31 := by
  have := r.size_le
  unfold BUFER_LENGTH at this
  omega

theorem defined_le (r : Received) {q : ℕ} (h : q ≤ BUFER_LENGTH) : r.buffer.Defined 0 q :=
  r.mapped.mono (le_refl 0) h

theorem checkFrame_iff (sync : UInt8) (self : Client F) (r : Received) :
    checkFrame sync self r.buffer r.size = some none ↔ ¬ r.Passes sync self.idcode :=
  checkFrame_reject_iff r.two_le r.size_lt (r.defined_le r.size_le) (r.defined_le (by decide))

end Received

/-- One received buffer. The parser of data frames also meets some indeterminate
    values in its local floats. -/
inductive Event (F : Type)
  | configurationFrame (r : Received)
  | dataFrame (r : Received) (temps : Temps F)

def handle (self : Client F) : Event F → Option (ℤ × Client F)
  | .configurationFrame r => parseConfigurationFrame self r.buffer r.size
  | .dataFrame r temps => parseDataFrame temps self r.buffer r.size

namespace Event

def isDataFrame : Event F → Bool
  | .dataFrame _ _ => true
  | .configurationFrame _ => false

def received : Event F → Received
  | .configurationFrame r => r
  | .dataFrame r _ => r

def Passes (idcode : UInt16) : Event F → Prop
  | .configurationFrame r => r.Passes 0x31 idcode
  | .dataFrame r _ => r.Passes 0x01 idcode

/-- No index of an accepted frame leaves the receive buffer or a channel array. -/
def Readable (self : Client F) : Event F → Prop
  | .configurationFrame r => 4 ≤ r.size ∧ RecordsDefined r.buffer
  | .dataFrame r _ => self.ArraysInside ∧ r.buffer.Defined 0 self.dataEnd

def store (self : Client F) : Event F → Client F
  | .configurationFrame r => self.storeConfiguration r.buffer.byte r.size
  | .dataFrame r temps => self.storeData temps r.buffer.byte

end Event

/-- Everything that handing over one buffer can do. -/
theorem handle_iff (self : Client F) (e : Event F) (r : ℤ × Client F) :
    handle self e = some r ↔
      (e.Passes self.idcode ∧ e.Readable self ∧ (0, e.store self) = r) ∨
        (¬ e.Passes self.idcode ∧ (-1, self) = r) := by
  cases e with
  | configurationFrame x =>
    have h0 := x.defined_le x.size_le
    have h20 := x.defined_le (q := 20) (by decide)
    change parseConfigurationFrame self x.buffer x.size = some r ↔ _
    rw [parseConfigurationFrame_iff self x.buffer x.size x.two_le x.size_lt, x.checkFrame_iff]
    simp only [h0, h20, true_and, Event.Passes, Event.Readable, Event.store, Received.Passes,
      and_assoc]
  | dataFrame x temps =>
    have h0 := x.defined_le x.size_le
    change parseDataFrame temps self x.buffer x.size = some r ↔ _
    rw [parseDataFrame_iff temps self x.buffer x.size x.two_le x.size_lt, x.checkFrame_iff]
    simp only [h0, true_and, Event.Passes, Event.Readable, Event.store, Received.Passes, and_assoc]

theorem handle_cases {self self' : Client F} {e : Event F} {r : ℤ}
    (h : handle self e = some (r, self')) :
    (r = 0 ∧ e.Passes self.idcode ∧ e.Readable self ∧ self' = e.store self) ∨
      (r = -1 ∧ ¬ e.Passes self.idcode ∧ self' = self) := by
  rcases (handle_iff self e _).1 h with ⟨pass, read, hr⟩ | ⟨fail, hr⟩
  · cases hr
    exact .inl ⟨rfl, pass, read, rfl⟩
  · cases hr
    exact .inr ⟨rfl, fail, rfl⟩

theorem store_idcode {self : Client F} {e : Event F} (pass : e.Passes self.idcode) :
    (e.store self).idcode = self.idcode := by
  cases e with
  | configurationFrame r =>
    obtain ⟨_, _, _, _, hid⟩ := pass
    exact hid
  | dataFrame r temps => rfl

theorem handle_idcode {self self' : Client F} {e : Event F} {r : ℤ}
    (h : handle self e = some (r, self')) : self'.idcode = self.idcode := by
  rcases handle_cases h with ⟨_, pass, _, rfl⟩ | ⟨_, _, rfl⟩
  · exact store_idcode pass
  · rfl

theorem handle_reject {self self' : Client F} {e : Event F}
    (h : handle self e = some (-1, self')) : self' = self := by
  rcases handle_cases h with ⟨hr, _⟩ | ⟨_, _, rfl⟩
  · simp at hr
  · rfl

theorem run_idcode {self final : Client F} {events : List (Event F)} {returned : List ℤ}
    (h : run handle self events = some (returned, final)) : final.idcode = self.idcode :=
  run_invariant (fun s => s.idcode = self.idcode)
    (fun _ _ _ _ _ hs step => (handle_idcode step).trans hs) rfl h

def acceptedOf (events : List (Event F)) (returned : List ℤ) : List (Event F) :=
  kept (· == 0) events returned

/-- A run does nothing but to store the accepted buffers one after the other. -/
theorem run_stores {self final : Client F} {events : List (Event F)} {returned : List ℤ}
    (h : run handle self events = some (returned, final)) :
    final = (acceptedOf events returned).foldl Event.store self := by
  have stored := run_history (· == 0)
    (fun accepted s => s = accepted.foldl Event.store self) (fun before s e r t hs step => ?_)
    [] rfl h
  · simpa [acceptedOf] using stored
  · rcases handle_cases step with ⟨rfl, _, _, rfl⟩ | ⟨rfl, _, rfl⟩
    · simp [hs]
    · simpa using hs

/-- Rejected frames change nothing, so that deleting them from a run leads to the same
    client, and the id code stays the one the client began with. -/
theorem rejected_frames_are_invisible {self final : Client F} {events : List (Event F)}
    {returned : List ℤ} (h : run handle self events = some (returned, final)) :
    (∀ (s s' : Client F) (e : Event F), handle s e = some (-1, s') → s' = s) ∧
      run handle self (kept (fun r => r != -1) events returned) =
        some (returned.filter (fun r => r != -1), final) ∧
      ∀ before after, events = before ++ after → ∀ returned' s,
        run handle self before = some (returned', s) → s.idcode = self.idcode := by
  refine ⟨fun s s' e => handle_reject, ?_, fun _ _ _ _ _ => run_idcode⟩
  apply run_kept _ _ h
  intro s e r t step rejected
  obtain rfl : r = -1 := by simpa using rejected
  exact handle_reject step

section
attribute [local instance] ExactRational.platform

def plainConfiguration : List UInt8 :=
  appendChk ([0xAA, 0x31, 0, 54, 0, 7, 0, 0, 0, 1, 0, 0, 0, 0, 0, 0, 3, 0xE8, 0, 1] ++
    [80, 77, 85, 0, 0, 0, 0, 0, 0, 0, 0, 0, 0, 0, 0, 0, 0, 7, 0, 0, 0, 0, 0, 0, 0, 0, 0, 1, 0, 1] ++
    [0, 50])

def spoiltConfiguration : List UInt8 := 0 :: plainConfiguration.tail

theorem plainConfiguration_two_le : 2 ≤ plainConfiguration.length := by decide

theorem plainConfiguration_fits : plainConfiguration.length ≤ BUFER_LENGTH := by decide

theorem spoiltConfiguration_fits : spoiltConfiguration.length ≤ BUFER_LENGTH := by decide

def plainEvents : List (Event ℚ) :=
  [.configurationFrame (.ofBytes spoiltConfiguration (by decide) (by decide)),
    .configurationFrame (.ofBytes plainConfiguration (by decide) (by decide)),
    .dataFrame (.ofBytes plainConfiguration (by decide) (by decide)) ⟨0, 0⟩]

theorem spoilt_and_misplaced_frames_deleted :
    ∃ final, run handle (Client.fresh 7 0 [] []) (kept (fun r => r != -1) plainEvents [-1, 0, -1]) =
      some ([0], final) ∧ final.numPmu = 1 := by
  have h : run handle (Client.fresh 7 0 [] []) plainEvents = some ([-1, 0, -1],
      (Client.fresh 7 0 [] []).storeConfiguration
        (Memory.zeroFilled BUFER_LENGTH plainConfiguration).byte 54) := by
    decide +kernel
  exact ⟨_, (rejected_frames_are_invisible h).2.1, by decide +kernel⟩

end
end Khorjin
