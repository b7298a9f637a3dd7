import Khorjin.ConfigurationRequest
import Khorjin.ReceiverLoop

set_option autoImplicit false

/-!
# Streaming over an ordered channel

The client starts and stops the transmission of a PMU and reads its data frames, in any
order and as often as it likes. The PMU takes the commands one after the other and sends
frames while it streams. Each frame arrives in a read of its own and in order, intact or
damaged, and the connection stays open.
-/
namespace Khorjin
open ByteMemory LoopRules RunRules
variable {F D : Type} [Platform F D]

structure Stream (F : Type) where
  client : Client F
  commands : List (List UInt8)
  frames : List (Arrival F)
  streaming : Bool
  /-- Every frame that was put on the channel so far, those that the client has read, and
      what its calls have returned. -/
  sent : List (Arrival F)
  heard : List (Arrival F)
  returned : List ℤ

/-- Before the first step the PMU streams if the client thinks that it does. -/
def Stream.start (self : Client F) : Stream F := ⟨self, [], [], self.running, [], [], []⟩

inductive StreamEvent (F : Type)
  | start (timeStamp : UInt64)
  | stop (timeStamp : UInt64)
  | read
  | send (d : Arrival F)
  | obey

def obeyed (streaming : Bool) (command : List UInt8) : Bool :=
  if commandWord command = 0x01 then false
  else if commandWord command = 0x02 then true
  else streaming

theorem arrival_bounds (d : Arrival F) : 2 ≤ d.bytes.length ∧ d.bytes.length ≤ BUFER_LENGTH := by
  have room := d.sent.room
  have size := d.sent.frame.encode_length
  have long := sixteen_le_length d.sent.frame
  rcases d.arrives with same | damaged
  · rw [same]
    omega
  · have short := damaged.length_le
    exact ⟨damaged.two_le (by omega), by omega⟩

def Arrival.chunk (d : Arrival F) : Chunk :=
  ⟨d.bytes, by have := (arrival_bounds d).1; omega, (arrival_bounds d).2⟩

/-- A step of one side, undefined where that side cannot take it. -/
def streamStep (s : Stream F) : StreamEvent F → Option (Unit × Stream F)
  | .start timeStamp =>
    let (frame, client) := startTransmission s.client timeStamp
    some ((), { s with client, commands := s.commands ++ [frame] })
  | .stop timeStamp =>
    let (frame, client) := stopTransmission s.client timeStamp
    some ((), { s with client, commands := s.commands ++ [frame] })
  | .read =>
    match s.frames with
    | [] => some ((), s)
    | d :: frames => do
      let (r, client, _) ← getDataStream d.sent.temps s.client [.received d.chunk]
      some ((), { s with client, frames, heard := s.heard ++ [d], returned := s.returned ++ [r] })
  | .send d =>
    if s.streaming then some ((), { s with frames := s.frames ++ [d], sent := s.sent ++ [d] })
    else none
  | .obey =>
    match s.commands with
    | [] => none
    | command :: commands =>
      some ((), { s with commands, streaming := obeyed s.streaming command })

def Arrival.result (d : Arrival F) : ℤ := if d.intact then 0 else -1

/-- The steps of the client, which are never refused. -/
def StreamEvent.OfClient : StreamEvent F → Prop
  | .start _ => True
  | .stop _ => True
  | .read => True
  | .send _ => False
  | .obey => False

structure Orderly (first : Client F) (s : Stream F) : Prop where
  order : s.heard ++ s.frames = s.sent
  fits : ∀ d ∈ s.sent, d.sent.frame.Fits first
  returned : s.returned = s.heard.map Arrival.result
  client : ∃ bufferSnd bufferRcv,
    s.client = (first.hearAll s.heard).withBuffers bufferSnd bufferRcv s.client.running
  agreed : s.commands.foldl obeyed s.streaming = s.client.running

section
variable {self : Client F} {s t : Stream F} {u : Unit}

theorem start_orderly (self : Client F) : Orderly self (Stream.start self) :=
  ⟨rfl, fun _ h => absurd h List.not_mem_nil, rfl, ⟨self.bufferSnd, self.bufferRcv, rfl⟩, rfl⟩

theorem command_orderly (h : Orderly self s) {frame snd rcv : List UInt8} {client : Client F}
    {running : Bool} (keeps : client = s.client.withBuffers snd rcv running)
    (word : ∀ streaming, obeyed streaming frame = running) :
    Orderly self { s with client, commands := s.commands ++ [frame] } := by
  obtain ⟨snd', rcv', same⟩ := h.client
  refine ⟨h.order, h.fits, h.returned, ⟨snd, rcv, ?_⟩, ?_⟩
  · rw [keeps, same]
    rfl
  · change (s.commands ++ [frame]).foldl obeyed s.streaming = client.running
    rw [List.foldl_append, keeps]
    exact word _

theorem obeyed_commandFrame (client : Client F) (timeStamp : UInt64) (streaming : Bool) :
    obeyed streaming (commandFrame client timeStamp 0x01) = false ∧
      obeyed streaming (commandFrame client timeStamp 0x02) = true := by
  rw [obeyed, obeyed, commandWord_commandFrame, commandWord_commandFrame]
  exact ⟨rfl, rfl⟩

theorem read_orderly (h : Orderly self s) {d : Arrival F} {frames : List (Arrival F)}
    (next : s.frames = d :: frames) : ∃ client, streamStep s .read = some ((), { s with
      client, frames, heard := s.heard ++ [d], returned := s.returned ++ [d.result] }) ∧
      Orderly self { s with
        client, frames, heard := s.heard ++ [d], returned := s.returned ++ [d.result] } := by
  obtain ⟨snd, rcv, same⟩ := h.client
  have member : ∀ x ∈ s.heard ++ [d], x.sent.frame.Fits self := by
    intro x hx
    apply h.fits
    rw [← h.order, next]
    rcases List.mem_append.1 hx with hx | hx
    · exact List.mem_append_left _ hx
    · obtain rfl := List.mem_singleton.1 hx
      exact List.mem_append_right _ List.mem_cons_self
  have fits := SentData.Fits.hearAll (fun x hx => member x (List.mem_append_left _ hx))
    (member d (List.mem_append_right _ List.mem_cons_self))
  have fits' : d.sent.frame.Fits s.client := by
    rw [same]
    exact ⟨fits.idcode, fits.arrays, fits.layouts⟩
  have call := getDataStream_arrival fits'
    (show readLoop [.received d.chunk] = some ((d.bytes.length : ℤ), d.bytes, []) from rfl)
  have after : (s.client.hear d).fillRcv d.bytes = (self.hearAll (s.heard ++ [d])).withBuffers snd
      (clearedBuffer d.bytes) s.client.running := by
    have heard : self.hearAll (s.heard ++ [d]) = (self.hearAll s.heard).hear d := by
      rw [Client.hearAll, List.foldl_append]
      rfl
    rw [same, hear_withBuffers, fillRcv_withBuffers, heard]
    rfl
  refine ⟨(s.client.hear d).fillRcv d.bytes, ?_, ?_⟩
  · simp only [streamStep, next, call, Option.bind_eq_bind, Option.bind_some]
    rfl
  · refine ⟨?_, h.fits, ?_, ⟨snd, clearedBuffer d.bytes, ?_⟩, ?_⟩
    · rw [← h.order, next, List.append_assoc, List.singleton_append]
    · rw [h.returned, List.map_append, List.map_singleton]
    · rw [after]
      rfl
    · rw [after]
      exact h.agreed

theorem send_orderly (h : Orderly self s) {d : Arrival F} (fits : d.sent.frame.Fits self) :
    Orderly self { s with frames := s.frames ++ [d], sent := s.sent ++ [d] } := by
  refine ⟨?_, ?_, h.returned, h.client, h.agreed⟩
  · rw [← h.order, List.append_assoc]
  · intro x hx
    rcases List.mem_append.1 hx with hx | hx
    · exact h.fits x hx
    · obtain rfl := List.mem_singleton.1 hx
      exact fits

theorem orderly_step (h : Orderly self s) {e : StreamEvent F}
    (fits : ∀ d, e = .send d → d.sent.frame.Fits self) (step : streamStep s e = some (u, t)) :
    Orderly self t := by
  cases e with
  | start timeStamp =>
    cases step
    exact command_orderly h rfl (fun b => (obeyed_commandFrame s.client timeStamp b).2)
  | stop timeStamp =>
    cases step
    exact command_orderly h rfl (fun b => (obeyed_commandFrame s.client timeStamp b).1)
  | read =>
    cases next : s.frames with
    | nil =>
      simp only [streamStep, next] at step
      cases step
      exact h
    | cons d frames =>
      obtain ⟨client, read, orderly⟩ := read_orderly h next
      rw [read] at step
      cases step
      exact orderly
  | send d =>
    simp only [streamStep] at step
    split_ifs at step
    cases step
    exact send_orderly h (fits d rfl)
  | obey =>
    cases hc : s.commands with
    | nil => simp [streamStep, hc] at step
    | cons command commands =>
      simp only [streamStep, hc] at step
      cases step
      have agreed := h.agreed
      rw [hc, List.foldl_cons] at agreed
      exact ⟨h.order, h.fits, h.returned, h.client, agreed⟩

theorem client_step_defined (h : Orderly self s) {e : StreamEvent F} (own : e.OfClient) :
    ∃ t, streamStep s e = some ((), t) := by
  cases e with
  | start timeStamp => exact ⟨_, rfl⟩
  | stop timeStamp => exact ⟨_, rfl⟩
  | read =>
    cases next : s.frames with
    | nil => exact ⟨s, by simp only [streamStep, next]⟩
    | cons d frames =>
      obtain ⟨client, read, _⟩ := read_orderly h next
      exact ⟨_, read⟩
  | send d => cases own
  | obey => cases own

theorem drain (h : Orderly self s) : ∃ t,
    run streamStep s (List.replicate s.frames.length .read) =
      some (List.replicate s.frames.length (), t) ∧
    Orderly self t ∧ t.frames = [] ∧ t.sent = s.sent := by
  generalize hf : s.frames = frames
  induction frames generalizing s with
  | nil => exact ⟨s, rfl, h, hf, rfl⟩
  | cons d frames ih =>
    obtain ⟨client, read, orderly⟩ := read_orderly h hf
    obtain ⟨t, rest, last, empty, same⟩ := ih orderly rfl
    exact ⟨t, (run_cons_iff _ _ _ _ _ _).2 ⟨_, _, _, read, rest, rfl⟩, last, empty, same⟩

/-- In whatever order the two sides take their steps, no frame is lost, read twice or out of
    turn: what the client has read and what is on its way are together what was sent. Each
    read has said whether its frame was intact, and the client holds what the intact ones
    made of it. Its next call is always possible, the PMU streams or rests as it was last
    told once all commands are taken, and reading the channel empty leaves nothing unheard. -/
theorem streaming_link_loses_nothing {events : List (StreamEvent F)} {steps : List Unit}
    (fits : ∀ d, .send d ∈ events → d.sent.frame.Fits self)
    (h : run streamStep (Stream.start self) events = some (steps, s)) :
    s.heard ++ s.frames = s.sent ∧ s.returned = s.heard.map Arrival.result ∧
      (∃ bufferSnd bufferRcv, s.client =
        (((s.heard.filter Arrival.intact).map Arrival.sent).foldl Client.take self).withBuffers
          bufferSnd bufferRcv s.client.running) ∧
      (s.commands = [] → s.streaming = s.client.running) ∧
      (∀ e : StreamEvent F, e.OfClient → ∃ t, streamStep s e = some ((), t)) ∧
      ∃ t, run streamStep s (List.replicate s.frames.length .read) =
          some (List.replicate s.frames.length (), t) ∧
        t.heard = s.sent ∧ t.returned = s.sent.map Arrival.result := by
  have orderly : Orderly self s := by
    refine run_invariant (Orderly self) ?_ (start_orderly self) h
    intro s e he u t before step
    refine orderly_step before ?_ step
    rintro d rfl
    exact fits d he
  obtain ⟨t, reads, last, empty, same⟩ := drain orderly
  have heard : t.heard = s.sent := by
    rw [← same, ← last.order, empty, List.append_nil]
  refine ⟨orderly.order, orderly.returned, ?_, ?_, fun e => client_step_defined orderly, t, reads,
    heard, ?_⟩
  · rw [← hearAll_eq]
    exact orderly.client
  · intro taken
    have agreed := orderly.agreed
    rw [taken] at agreed
    exact agreed
  · rw [last.returned, heard]

end

section
attribute [local instance] ExactRational.platform

def voltageSteps : List (StreamEvent ℚ) :=
  [.start 1, .read, .obey, .send voltageIntact, .send voltageCut, .read, .stop 2]

theorem cut_frame_is_still_heard :
    ∃ s t, run streamStep (Stream.start voltageClient) voltageSteps =
        some (List.replicate 7 (), s) ∧ s.returned = [0] ∧
      run streamStep s [.read] = some ([()], t) ∧ t.returned = [0, -1] := by
  have steps : (run streamStep (Stream.start voltageClient) voltageSteps).map
      (fun r => (r.1, r.2.returned, r.2.frames.length, r.2.sent.map Arrival.result)) =
        some (List.replicate 7 (), [0], 1, [0, -1]) := by
    decide +kernel
  obtain ⟨⟨_, s⟩, h, result⟩ := Option.map_eq_some_iff.1 steps
  simp only [Prod.mk.injEq] at result
  obtain ⟨rfl, returned, one, results⟩ := result
  have fits : ∀ d, .send d ∈ voltageSteps → d.sent.frame.Fits voltageClient := by
    intro d hd
    apply voltageArrivals_fit
    simpa [voltageSteps] using hd
  obtain ⟨_, _, _, _, _, t, drained, _, last⟩ := streaming_link_loses_nothing fits h
  rw [one] at drained
  exact ⟨s, t, h, returned, drained, last.trans results⟩

end
end Khorjin
