import Khorjin.ConnectionEnd
import Khorjin.ExampleProgram
import Khorjin.StationFrames

set_option autoImplicit false

/-!
# What a client makes of a station's frames

A data frame does not say for which configuration it was made, so that the client reads it
as one for the configuration that it has installed.
-/
namespace Khorjin
open ByteMemory LoopRules RunRules
variable {F D : Type} [Platform F D]

inductive Call (F : Type)
  | configuration
  | dataStream (temps : Temps F)

namespace Call

def sync : Call F → UInt8
  | .configuration => 0x31
  | .dataStream _ => 0x01

/-- The call behind its read loop, which `p` has ended. -/
def receive (self : Client F) (p : Packet) : Call F → Option (Option ℤ × Client F)
  | .configuration => receiveConfiguration self p.bytes p.bytes.length
  | .dataStream temps => do
    let (r, self, _) ← getDataStream temps self [.received p.chunk]
    some (some r, self)

def event (p : Packet) : Call F → Event F
  | .configuration => .configurationFrame p.received
  | .dataStream temps => .dataFrame p.received temps

def returns (r : ℤ) : Call F → Option ℤ
  | .configuration => if r = 0 then some 0 else none
  | .dataStream _ => some r

theorem receive_of_handle {self t : Client F} {p : Packet} {call : Call F} {r : ℤ}
    (h : handle (self.fillRcv p.bytes) (call.event p) = some (r, t)) :
    call.receive self p = some (call.returns r, t) := by
  cases call with
  | configuration =>
    have parsed : parseConfigurationFrame (self.fillRcv p.bytes)
        (Memory.zeroFilled BUFER_LENGTH p.bytes) p.bytes.length = some (r, t) := h
    simp only [receive, receiveConfiguration, parsed, returns, Option.bind_eq_bind,
      Option.bind_some]
  | dataStream temps =>
    have parsed : parseDataFrame temps (self.fillRcv p.bytes)
        (Memory.zeroFilled BUFER_LENGTH p.bytes) p.bytes.length = some (r, t) := h
    have next : readLoop [.received p.chunk] = some ((p.bytes.length : ℤ), p.bytes, []) := rfl
    simp only [receive, getDataStream, next, parsed, returns, Option.bind_eq_bind,
      Option.bind_some]

end Call

theorem handle_withBuffers {self t : Client F} {e : Event F} {r : ℤ}
    (h : handle self e = some (r, t)) (snd rcv : List UInt8) (running : Bool) :
    handle (self.withBuffers snd rcv running) e = some (r, t.withBuffers snd rcv running) := by
  rcases handle_cases h with ⟨rfl, passes, readable, rfl⟩ | ⟨rfl, rejected, rfl⟩
  · refine (handle_iff _ _ _).2 (.inl ⟨passes, ?_, ?_⟩)
    · cases e <;> exact readable
    · cases e <;> rfl
  · exact (handle_iff _ _ _).2 (.inr ⟨rejected, rfl⟩)

structure Heard (F : Type) where
  call : Call F
  packet : Packet

namespace Heard

def event (h : Heard F) : Event F := h.call.event h.packet

/-- The frame is intact and of the kind that the call expects. -/
def accepted (h : Heard F) : Bool := h.packet.intact && h.packet.posting.sync == h.call.sync

def verdict (h : Heard F) : ℤ := if h.accepted then 0 else -1

theorem passes_iff (h : Heard F) :
    h.event.Passes h.packet.posting.station.configuration.idcode ↔ h.accepted = true := by
  have passes := h.packet.passes_iff h.call.sync
  rw [accepted, Bool.and_eq_true, beq_iff_eq, ← passes]
  cases hc : h.call with
  | configuration =>
    simp only [event, hc, Call.event, Call.sync]
    rfl
  | dataStream temps =>
    simp only [event, hc, Call.event, Call.sync]
    rfl

theorem event_of_intact (h : Heard F) (intact : h.packet.intact = true) {l : List UInt8}
    (two_le : 2 ≤ l.length) (fits : l.length ≤ BUFER_LENGTH) (same : h.packet.posting.encode = l) :
    h.packet.received = .ofBytes l two_le fits := by
  have bytes : h.packet.bytes = l := (beq_iff_eq.1 intact).trans same
  subst bytes
  rfl

theorem event_of_answer {h : Heard F} (ok : h.accepted = true)
    (answer : h.packet.posting.values = none) : h.event =
      h.packet.posting.station.configuration.event h.packet.posting.station.fits := by
  obtain ⟨intact, kind⟩ := Bool.and_eq_true_iff.1 ok
  have kind := beq_iff_eq.1 kind
  have same : h.packet.posting.encode = h.packet.posting.station.configuration.encode := by
    rw [Posting.encode, answer]
  have bytes := h.event_of_intact intact h.packet.posting.station.configuration.two_le
    (Cfg2.length_le h.packet.posting.station.fits) same
  cases hc : h.call with
  | configuration => rw [event, hc, Call.event, bytes, Cfg2.event]
  | dataStream temps => simp [Posting.sync, answer, hc, Call.sync] at kind

theorem event_of_values {h : Heard F} (ok : h.accepted = true)
    {x : { x : SentData // x.MadeFor h.packet.posting.station.configuration }}
    (values : h.packet.posting.values = some x) :
    ∃ y : Transmitted F, y.frame = x.1 ∧ h.event = y.event := by
  obtain ⟨intact, kind⟩ := Bool.and_eq_true_iff.1 ok
  have kind := beq_iff_eq.1 kind
  have same : h.packet.posting.encode = x.1.encode := by
    rw [Posting.encode, values]
  cases hc : h.call with
  | configuration => simp [Posting.sync, values, hc, Call.sync] at kind
  | dataStream temps =>
    let y : Transmitted F := ⟨x.1, x.2.size_le.trans h.packet.posting.station.fits, temps⟩
    have bytes := h.event_of_intact intact y.two_le y.length_le same
    refine ⟨y, rfl, ?_⟩
    rw [event, hc, Call.event, bytes]
    rfl

end Heard

/-- The answer that the client has installed last, and the last values that it has accepted
    since then. -/
structure Knowledge where
  answer : Posting
  sample : Option Posting

def Knowledge.learn (known : Option Knowledge) (h : Heard F) : Option Knowledge :=
  if h.accepted then
    match h.packet.posting.values with
    | none => some ⟨h.packet.posting, none⟩
    | some _ => known.map (fun k => { k with sample := some h.packet.posting })
  else known

def knowledge (heard : List (Heard F)) : Option Knowledge := heard.foldl Knowledge.learn none

def Posting.ShownBy (p : Posting) (self : Client F) : Prop :=
  ∃ x, p.values = some x ∧ List.Forall₂ Configuration.Shows self.configuration x.1.pmus

/-- What holds of a client that has this knowledge. -/
structure Informed (client : Client F) (known : Option Knowledge) : Prop where
  sturdy : client.Sturdy
  unconfigured : known = none → client.configuration = []
  carries : ∀ k, known = some k → client.Carries k.answer.station.configuration
  shows : ∀ k d, known = some k → k.sample = some d → d.epoch = k.answer.epoch →
    d.ShownBy client

section
variable {self : Client F} {known : Option Knowledge} {h : Heard F}

theorem handle_rejected (serves : h.packet.posting.station.Serves self.idcode)
    (rejected : h.accepted = false) : handle self h.event = some (h.verdict, self) := by
  refine (handle_iff _ _ _).2 (.inr ⟨?_, ?_⟩)
  · rw [← serves.idcode, h.passes_iff, rejected]
    exact Bool.false_ne_true
  · simp [Heard.verdict, rejected]

theorem answer_informs (serves : h.packet.posting.station.Serves self.idcode)
    (ok : h.accepted = true) (answer : h.packet.posting.values = none) :
    ∃ t, handle self h.event = some (h.verdict, t) ∧
      Informed t (some ⟨h.packet.posting, none⟩) := by
  have verdict : h.verdict = 0 := if_pos ok
  have fits := h.packet.posting.station.fits
  obtain ⟨_, carries, _, step⟩ := answer_installs serves.idcode.symm fits serves.uniform
  rw [Heard.event_of_answer ok answer, verdict]
  refine ⟨_, step, ?_⟩
  constructor
  case sturdy => exact ⟨carries.arraysMatch, carries.dataEnd_le.trans fits⟩
  case unconfigured => simp
  case carries =>
    rintro k ⟨⟩
    exact carries
  case shows =>
    rintro k d ⟨⟩ ⟨⟩

theorem Informed.sample (informed : Informed self known)
    (serves : h.packet.posting.station.Serves self.idcode) (ok : h.accepted = true)
    {x : { x : SentData // x.MadeFor h.packet.posting.station.configuration }}
    (values : h.packet.posting.values = some x)
    (same : ∀ k, known = some k → h.packet.posting.epoch = k.answer.epoch →
      h.packet.posting.station = k.answer.station) :
    ∃ t, handle self h.event = some (h.verdict, t) ∧
      Informed t (known.map (fun k => { k with sample := some h.packet.posting })) := by
  have verdict : h.verdict = 0 := if_pos ok
  have passes := h.passes_iff.2 ok
  obtain ⟨y, frame, event⟩ := Heard.event_of_values ok values
  rw [serves.idcode, event] at passes
  rw [event, verdict]
  have installed := storeData_installation self y.temps y.received.buffer.byte
  refine ⟨self.storeData y.temps y.received.buffer.byte, (handle_iff _ _ _).2 (.inl ⟨passes,
    ⟨informed.sturdy.arrays.arraysInside, y.received.defined_le informed.sturdy.room⟩, rfl⟩), ?_⟩
  constructor
  case sturdy => exact informed.sturdy.storeData _ _
  case unconfigured =>
    intro unknown
    have empty := informed.unconfigured (Option.map_eq_none_iff.1 unknown)
    have layouts := layouts_storeData self y.temps y.received.buffer.byte
    rw [Client.layouts, Client.layouts, empty] at layouts
    exact List.map_eq_nil_iff.1 layouts
  case carries =>
    intro k hk
    obtain ⟨before, hbefore, rfl⟩ := Option.map_eq_some_iff.1 hk
    exact (informed.carries before hbefore).of_installation installed
  case shows =>
    intro k d hk hd epoch
    obtain ⟨before, hbefore, rfl⟩ := Option.map_eq_some_iff.1 hk
    obtain rfl := Option.some.inj hd
    have carries := informed.carries before hbefore
    rw [← same before hbefore epoch] at carries
    have fits := x.2.fits serves.idcode.symm carries
    rw [← frame] at fits
    refine ⟨x, values, ?_⟩
    rw [storeData_of_holds fits y.received_holds, ← frame]
    exact take_shows fits

theorem Informed.learn (informed : Informed self known)
    (serves : h.packet.posting.station.Serves self.idcode)
    (same : ∀ k, known = some k → h.packet.posting.epoch = k.answer.epoch →
      h.packet.posting.station = k.answer.station) :
    ∃ t, handle self h.event = some (h.verdict, t) ∧ Informed t (Knowledge.learn known h) := by
  cases ok : h.accepted with
  | false =>
    rw [Knowledge.learn, ok]
    exact ⟨self, handle_rejected serves ok, informed⟩
  | true =>
    rw [Knowledge.learn, if_pos ok]
    cases values : h.packet.posting.values with
    | none => exact answer_informs serves ok values
    | some x => exact informed.sample serves ok values same

end

theorem knowledge_append (heard : List (Heard F)) (h : Heard F) :
    knowledge (heard ++ [h]) = Knowledge.learn (knowledge heard) h := by
  rw [knowledge, List.foldl_append]
  rfl

/-- What is known has been heard, the answer before the sample. -/
theorem knowledge_heard {heard : List (Heard F)}
    (ordered : (heard.map (fun h => h.packet.posting)).Pairwise (fun p q => p.epoch ≤ q.epoch))
    {k : Knowledge} (hk : knowledge heard = some k) :
    k.answer ∈ heard.map (fun h => h.packet.posting) ∧
      ∀ d, k.sample = some d → d ∈ heard.map (fun h => h.packet.posting) ∧
        k.answer.epoch ≤ d.epoch := by
  induction heard using List.reverseRecOn generalizing k with
  | nil => simp [knowledge] at hk
  | append_singleton heard h ih =>
    rw [List.map_append, List.pairwise_append] at ordered
    obtain ⟨earlier, _, last⟩ := ordered
    rw [knowledge_append, Knowledge.learn] at hk
    rw [List.map_append]
    have own : h.packet.posting ∈ [h].map (fun h => h.packet.posting) := List.mem_singleton.2 rfl
    split_ifs at hk
    · cases values : h.packet.posting.values with
      | none =>
        rw [values] at hk
        cases hk
        exact ⟨List.mem_append_right _ own, fun d hd => by simp at hd⟩
      | some x =>
        rw [values] at hk
        obtain ⟨before, hbefore, rfl⟩ := Option.map_eq_some_iff.1 hk
        obtain ⟨answer, _⟩ := ih earlier hbefore
        refine ⟨List.mem_append_left _ answer, ?_⟩
        rintro d ⟨⟩
        exact ⟨List.mem_append_right _ own, last _ answer _ own⟩
    · obtain ⟨answer, sample⟩ := ih earlier hk
      refine ⟨List.mem_append_left _ answer, fun d hd => ?_⟩
      exact ⟨List.mem_append_left _ (sample d hd).1, (sample d hd).2⟩

end Khorjin
