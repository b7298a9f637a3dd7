import Khorjin.ClientKnowledge
import Khorjin.StreamingLink

set_option autoImplicit false

/-!
# A link to a station that is reconfigured

One thread calls the client in any order, and a call that reads waits until something has
come in. The station takes the commands one after the other, sends data frames while it
streams, and is given another configuration at any time. Frames arrive in order, each with
one read, and the connection stays open.
-/
namespace Khorjin
open ByteMemory LoopRules RunRules
variable {F D : Type} [Platform F D]

inductive Command
  | stop
  | start
  | request

namespace Command

def issue (self : Client F) (timeStamp : UInt64) : Command → List UInt8 × Client F
  | .stop => stopTransmission self timeStamp
  | .start => startTransmission self timeStamp
  | .request => requestConfiguration self timeStamp

def call : Command → Option (Call F)
  | .request => some .configuration
  | _ => none

end Command

structure Conversation (F : Type) where
  client : Client F
  call : Option (Call F)
  commands : List (List UInt8)
  frames : List Packet
  station : Station
  epoch : ℕ
  streaming : Bool
  /-- All frames that were sent so far, those that the client has read, and what its calls
      have returned. -/
  posted : List Posting
  heard : List (Heard F)
  returned : List (Option ℤ)

namespace Conversation

def start (self : Client F) (station : Station) (streaming : Bool) : Conversation F :=
  ⟨self, none, [], [], station, 0, streaming, [], [], []⟩

def post (s : Conversation F) (fault : Fault)
    (values : Option { x : SentData // x.MadeFor s.station.configuration }) : Conversation F :=
  let p : Posting := ⟨s.epoch, s.station, values⟩
  { s with frames := s.frames ++ [⟨p, fault p.encode⟩], posted := s.posted ++ [p] }

end Conversation

inductive Move (F : Type)
  | command (c : Command) (timeStamp : UInt64)
  | listen (temps : Temps F)
  | turn
  | send (x : SentData) (fault : Fault)
  | obey (fault : Fault)
  | reconfigure (station : Station)

/-- A step of one side, undefined where that side cannot take it. -/
def converse (s : Conversation F) : Move F → Option (Unit × Conversation F)
  | .command c timeStamp =>
    if s.call.isNone then
      let (frame, client) := c.issue s.client timeStamp
      some ((), { s with client, call := c.call, commands := s.commands ++ [frame] })
    else none
  | .listen temps =>
    if s.call.isNone then some ((), { s with call := some (.dataStream temps) }) else none
  | .turn =>
    match s.call, s.frames with
    | none, _ => none
    | some _, [] => some ((), s)
    | some call, p :: frames => do
      let (r, client) ← call.receive s.client p
      some ((), { s with
        client, frames, call := none, heard := s.heard ++ [⟨call, p⟩],
        returned := s.returned ++ [r] })
  | .send x fault =>
    if may : s.streaming = true ∧ x.MadeFor s.station.configuration then
      some ((), s.post fault (some ⟨x, may.2⟩))
    else none
  | .obey fault =>
    match s.commands with
    | [] => none
    | command :: commands =>
      let s' := { s with commands, streaming := obeyed s.streaming command }
      some ((), if commandWord command = 0x05 then s'.post fault none else s')
  | .reconfigure station => some ((), { s with station, epoch := s.epoch + 1 })

inductive Moved (s : Conversation F) : Move F → Conversation F → Prop
  | command (c : Command) (timeStamp : UInt64) (idle : s.call = none) :
    Moved s (.command c timeStamp) { s with
      client := (c.issue s.client timeStamp).2, call := c.call,
      commands := s.commands ++ [(c.issue s.client timeStamp).1] }
  | listen (temps : Temps F) (idle : s.call = none) :
    Moved s (.listen temps) { s with call := some (.dataStream temps) }
  | wait {call : Call F} (waits : s.call = some call) (empty : s.frames = []) : Moved s .turn s
  | take {call : Call F} {p : Packet} {frames : List Packet} {r : Option ℤ} {client : Client F}
    (waits : s.call = some call) (next : s.frames = p :: frames)
    (received : call.receive s.client p = some (r, client)) : Moved s .turn { s with
      client, frames, call := none, heard := s.heard ++ [⟨call, p⟩],
      returned := s.returned ++ [r] }
  | send (x : { x : SentData // x.MadeFor s.station.configuration }) (fault : Fault)
    (streams : s.streaming = true) : Moved s (.send x.1 fault) (s.post fault (some x))
  | answer {command : List UInt8} {commands : List (List UInt8)} (fault : Fault)
    (next : s.commands = command :: commands) (word : commandWord command = 0x05) :
    Moved s (.obey fault)
      ({ s with commands, streaming := obeyed s.streaming command }.post fault none)
  | obey {command : List UInt8} {commands : List (List UInt8)} (fault : Fault)
    (next : s.commands = command :: commands) (other : commandWord command ≠ 0x05) :
    Moved s (.obey fault) { s with commands, streaming := obeyed s.streaming command }
  | reconfigure (station : Station) :
    Moved s (.reconfigure station) { s with station, epoch := s.epoch + 1 }

theorem moved {s t : Conversation F} {m : Move F} {u : Unit} (step : converse s m = some (u, t)) :
    Moved s m t := by
  cases m with
  | command c timeStamp =>
    simp only [converse] at step
    split_ifs at step with idle
    cases step
    exact .command c timeStamp (Option.isNone_iff_eq_none.1 idle)
  | listen temps =>
    simp only [converse] at step
    split_ifs at step with idle
    cases step
    exact .listen temps (Option.isNone_iff_eq_none.1 idle)
  | turn =>
    cases waits : s.call with
    | none => simp [converse, waits] at step
    | some call =>
      cases next : s.frames with
      | nil =>
        simp only [converse, waits, next] at step
        cases step
        exact .wait waits next
      | cons p frames =>
        simp only [converse, waits, next, Option.bind_eq_bind, Option.bind_eq_some_iff] at step
        obtain ⟨⟨r, client⟩, received, step⟩ := step
        cases step
        exact .take waits next received
  | send x fault =>
    simp only [converse] at step
    split_ifs at step with may
    cases step
    exact .send ⟨x, may.2⟩ fault may.1
  | obey fault =>
    cases next : s.commands with
    | nil => simp [converse, next] at step
    | cons command commands =>
      simp only [converse, next] at step
      split_ifs at step with word
      · cases step
        exact .answer fault next word
      · cases step
        exact .obey fault next word
  | reconfigure station =>
    cases step
    exact .reconfigure station

def Heard.returned (h : Heard F) : Option ℤ := h.call.returns h.verdict

/-- The frames keep their order, and their epochs say which station sent them. -/
structure Chronicle (idcode : UInt16) (s : Conversation F) : Prop where
  order : s.heard.map (fun h => h.packet.posting) ++ s.frames.map Packet.posting = s.posted
  ordered : s.posted.Pairwise (fun p q => p.epoch ≤ q.epoch)
  past : ∀ p ∈ s.posted, p.epoch ≤ s.epoch ∧ (p.epoch = s.epoch → p.station = s.station)
  same : ∀ p ∈ s.posted, ∀ q ∈ s.posted, p.epoch = q.epoch → p.station = q.station
  current : s.station.Serves idcode
  served : ∀ p ∈ s.posted, p.station.Serves idcode

/-- The client is, up to its buffers and its flag, what the packets read have made of it. -/
structure Faithful (first : Client F) (s : Conversation F) : Prop where
  chronicle : Chronicle first.idcode s
  returned : s.returned = s.heard.map Heard.returned
  replay : ∃ final, run handle first (s.heard.map Heard.event) =
      some (s.heard.map Heard.verdict, final) ∧ Informed final (knowledge s.heard) ∧
    ∃ bufferSnd bufferRcv, s.client = final.withBuffers bufferSnd bufferRcv s.client.running

section
variable {first : Client F} {s t : Conversation F} {u : Unit} {id : UInt16}

theorem Chronicle.post (c : Chronicle id s) (fault : Fault)
    (values : Option { x : SentData // x.MadeFor s.station.configuration }) :
    Chronicle id (s.post fault values) := by
  obtain ⟨order, ordered, past, same, current, served⟩ := c
  have now : ∀ p ∈ [(⟨s.epoch, s.station, values⟩ : Posting)],
      p.epoch = s.epoch ∧ p.station = s.station := by
    intro p hp
    obtain rfl := List.mem_singleton.1 hp
    exact ⟨rfl, rfl⟩
  constructor
  case order =>
    change _ ++ (s.frames ++ [_]).map Packet.posting = s.posted ++ [_]
    rw [List.map_append, ← List.append_assoc]
    exact congrArg (fun l => l ++ [_]) order
  case ordered =>
    refine List.pairwise_append.2 ⟨ordered, List.pairwise_singleton _ _, fun p hp q hq => ?_⟩
    rw [(now q hq).1]
    exact (past p hp).1
  case past =>
    intro p hp
    rcases List.mem_append.1 hp with hp | hp
    · exact past p hp
    · exact ⟨(now p hp).1.le, fun _ => (now p hp).2⟩
  case same =>
    intro p hp q hq epoch
    rcases List.mem_append.1 hp with hp | hp <;> rcases List.mem_append.1 hq with hq | hq
    · exact same p hp q hq epoch
    · rw [(now q hq).1] at epoch
      rw [(now q hq).2]
      exact (past p hp).2 epoch
    · rw [(now p hp).1] at epoch
      rw [(now p hp).2]
      exact ((past q hq).2 epoch.symm).symm
    · rw [(now p hp).2, (now q hq).2]
  case current => exact current
  case served =>
    intro p hp
    rcases List.mem_append.1 hp with hp | hp
    · exact served p hp
    · rw [(now p hp).2]
      exact current

theorem Chronicle.keep (c : Chronicle id s) (client : Client F) (call : Option (Call F))
    (commands : List (List UInt8)) (streaming : Bool) :
    Chronicle id { s with client, call, commands, streaming } :=
  ⟨c.order, c.ordered, c.past, c.same, c.current, c.served⟩

theorem Chronicle.reconfigure (c : Chronicle id s) {station : Station}
    (serves : station.Serves id) :
    Chronicle id { s with station, epoch := s.epoch + 1 } := by
  refine ⟨c.order, c.ordered, fun p hp => ?_, c.same, serves, c.served⟩
  have earlier := (c.past p hp).1
  refine ⟨Nat.le_succ_of_le earlier, fun now => ?_⟩
  have now : p.epoch = s.epoch + 1 := now
  omega

theorem Faithful.keep (h : Faithful first s) (call : Option (Call F))
    (commands : List (List UInt8)) (streaming : Bool) :
    Faithful first { s with call, commands, streaming } :=
  ⟨h.chronicle.keep s.client call commands streaming, h.returned, h.replay⟩

theorem Faithful.post (h : Faithful first s) (fault : Fault)
    (values : Option { x : SentData // x.MadeFor s.station.configuration }) :
    Faithful first (s.post fault values) :=
  ⟨h.chronicle.post fault values, h.returned, h.replay⟩

theorem issue_withBuffers (c : Command) (self : Client F) (timeStamp : UInt64) :
    ∃ bufferSnd bufferRcv, (c.issue self timeStamp).2 =
      self.withBuffers bufferSnd bufferRcv (c.issue self timeStamp).2.running := by
  cases c with
  | stop => exact ⟨_, self.bufferRcv, rfl⟩
  | start => exact ⟨_, self.bufferRcv, rfl⟩
  | request => exact ⟨_, clearedBuffer [], rfl⟩

theorem command_faithful (h : Faithful first s) (c : Command) (timeStamp : UInt64)
    (call : Option (Call F)) (commands : List (List UInt8)) :
    Faithful first { s with client := (c.issue s.client timeStamp).2, call, commands } := by
  obtain ⟨chronicle, returned, final, run, informed, snd, rcv, same⟩ := h
  obtain ⟨snd', rcv', issued⟩ := issue_withBuffers c s.client timeStamp
  refine ⟨chronicle.keep _ _ _ _, returned, final, run, informed, snd', rcv', ?_⟩
  change (c.issue s.client timeStamp).2 = _
  rw [issued, same]
  rfl

theorem turn_faithful (h : Faithful first s) {call : Call F} (waits : s.call = some call)
    {p : Packet} {frames : List Packet} (next : s.frames = p :: frames) :
    ∃ client, converse s .turn = some ((), { s with
        client, frames, call := none, heard := s.heard ++ [⟨call, p⟩],
        returned := s.returned ++ [(⟨call, p⟩ : Heard F).returned] }) ∧
      Faithful first { s with
        client, frames, call := none, heard := s.heard ++ [⟨call, p⟩],
        returned := s.returned ++ [(⟨call, p⟩ : Heard F).returned] } := by
  obtain ⟨⟨order, ordered, past, same, current, served⟩, returned, final, run, informed, snd, rcv,
    client⟩ := h
  have order' : (s.heard ++ [(⟨call, p⟩ : Heard F)]).map (fun h => h.packet.posting) ++
      frames.map Packet.posting = s.posted := by
    rw [← order, next, List.map_append, List.append_assoc]
    rfl
  have heardEarlier : (s.heard.map (fun h => h.packet.posting)).Pairwise
      (fun p q => p.epoch ≤ q.epoch) := by
    rw [← order] at ordered
    exact (List.pairwise_append.1 ordered).1
  have own : p.posting ∈ s.posted := by
    rw [← order', List.map_append]
    exact List.mem_append_left _ (List.mem_append_right _ (List.mem_singleton.2 rfl))
  have serves : p.posting.station.Serves final.idcode := by
    rw [run_idcode run]
    exact served _ own
  have answered : ∀ k, knowledge s.heard = some k → p.posting.epoch = k.answer.epoch →
      p.posting.station = k.answer.station := by
    intro k hk
    refine same _ own _ ?_
    rw [← order]
    exact List.mem_append_left _ (knowledge_heard heardEarlier hk).1
  obtain ⟨t, step, learnt⟩ := informed.learn (h := ⟨call, p⟩) serves answered
  have filled : s.client.fillRcv p.bytes =
      final.withBuffers snd (clearedBuffer p.bytes) s.client.running := by
    rw [client]
    rfl
  have handled : handle (s.client.fillRcv p.bytes) (call.event p) =
      some ((⟨call, p⟩ : Heard F).verdict,
        t.withBuffers snd (clearedBuffer p.bytes) s.client.running) := by
    rw [filled]
    exact handle_withBuffers step _ _ _
  have received := Call.receive_of_handle handled
  refine ⟨t.withBuffers snd (clearedBuffer p.bytes) s.client.running, ?_, ?_⟩
  · simp only [converse, waits, next, received, Option.bind_eq_bind, Option.bind_some]
    rfl
  · refine ⟨⟨order', ordered, past, same, current, served⟩, ?_, t, ?_, ?_, snd,
      clearedBuffer p.bytes, rfl⟩
    · change s.returned ++ [_] = _
      rw [returned, List.map_append, List.map_singleton]
    · rw [List.map_append, List.map_append]
      exact (run_append_iff _ _ _ _ _ _).2
        ⟨_, final, _, run, (run_cons_iff _ _ _ _ _ _).2 ⟨_, t, [], step, rfl, rfl⟩, rfl⟩
    · rw [knowledge_append]
      exact learnt

theorem faithful_step (h : Faithful first s) {m : Move F}
    (serves : ∀ g, m = .reconfigure g → g.Serves first.idcode)
    (step : converse s m = some (u, t)) : Faithful first t := by
  cases moved step with
  | command c timeStamp => exact command_faithful h c timeStamp c.call _
  | listen temps => exact h.keep _ s.commands s.streaming
  | wait => exact h
  | take waits next =>
    obtain ⟨client, taken, faithful⟩ := turn_faithful h waits next
    exact (Prod.mk.inj (Option.some.inj (taken.symm.trans step))).2 ▸ faithful
  | send x fault => exact h.post fault _
  | answer fault => exact (h.keep s.call _ _).post fault none
  | obey fault => exact h.keep s.call _ _
  | reconfigure station =>
    exact ⟨h.chronicle.reconfigure (serves station rfl), h.returned, h.replay⟩

theorem start_faithful {station : Station} (serves : station.Serves first.idcode)
    (sturdy : first.Sturdy) (unconfigured : first.configuration = []) (streaming : Bool) :
    Faithful first (Conversation.start first station streaming) := by
  refine ⟨⟨rfl, .nil, ?_, ?_, serves, ?_⟩, rfl, first, rfl, ?_, first.bufferSnd, first.bufferRcv,
    rfl⟩
  · simp [Conversation.start]
  · simp [Conversation.start]
  · simp [Conversation.start]
  · exact ⟨sturdy, fun _ => unconfigured, by simp [knowledge, Conversation.start],
      by simp [knowledge, Conversation.start]⟩

theorem turn_defined (h : Faithful first s) (waits : s.call ≠ none) :
    ∃ t, converse s .turn = some ((), t) := by
  obtain ⟨call, hc⟩ := Option.ne_none_iff_exists'.1 waits
  cases next : s.frames with
  | nil => exact ⟨s, by simp only [converse, hc, next]⟩
  | cons p frames =>
    obtain ⟨client, taken, _⟩ := turn_faithful h hc next
    exact ⟨_, taken⟩

theorem faithful_knowledge (h : Faithful first s) {k : Knowledge}
    (hk : knowledge s.heard = some k) : s.client.Carries k.answer.station.configuration ∧
      (∀ d, k.sample = some d → k.answer.epoch ≤ d.epoch ∧ d.epoch ≤ s.epoch ∧
        (d.epoch = k.answer.epoch → d.ShownBy s.client)) ∧
      (k.answer.epoch = s.epoch → s.client.Carries s.station.configuration ∧
        ∀ d, k.sample = some d → d.ShownBy s.client) := by
  obtain ⟨chronicle, _, final, _, informed, snd, rcv, client⟩ := h
  have shown : ∀ d : Posting, d.ShownBy final → d.ShownBy s.client := by
    rintro d ⟨x, values, shows⟩
    rw [client]
    exact ⟨x, values, shows⟩
  have carries : s.client.Carries k.answer.station.configuration := by
    rw [client]
    exact informed.carries k hk
  have ordered := chronicle.ordered
  rw [← chronicle.order] at ordered
  obtain ⟨answer, sample⟩ := knowledge_heard (List.pairwise_append.1 ordered).1 hk
  have posted : ∀ p ∈ s.heard.map (fun h => h.packet.posting), p ∈ s.posted :=
    fun p hp => chronicle.order ▸ List.mem_append_left _ hp
  refine ⟨carries, fun d hd => ?_, fun current => ⟨?_, fun d hd => ?_⟩⟩
  · obtain ⟨member, after⟩ := sample d hd
    exact ⟨after, (chronicle.past d (posted d member)).1,
      fun epoch => shown d (informed.shows k d hk hd epoch)⟩
  · rw [← (chronicle.past _ (posted _ answer)).2 current]
    exact carries
  · obtain ⟨member, after⟩ := sample d hd
    have before := (chronicle.past d (posted d member)).1
    exact shown d (informed.shows k d hk hd (by omega))

theorem run_faithful {pmuIdCode : ℤ} {timeoutInMs : UInt32} {bufferSnd bufferRcv : List UInt8}
    {station : Station} {streaming : Bool} {moves : List (Move F)} {steps : List Unit}
    (serves : station.Serves (UInt16.ofInt pmuIdCode))
    (serve : ∀ g, .reconfigure g ∈ moves → g.Serves (UInt16.ofInt pmuIdCode))
    (h : run converse (Conversation.start (Client.fresh pmuIdCode timeoutInMs bufferSnd bufferRcv)
      station streaming) moves = some (steps, s)) :
    Faithful (Client.fresh pmuIdCode timeoutInMs bufferSnd bufferRcv : Client F) s := by
  refine run_invariant (Faithful _) ?_
    (start_faithful serves (fresh_sturdy _ _ _ _) rfl streaming) h
  intro s m hm u t before step
  refine faithful_step before ?_ step
  rintro g rfl
  exact serve g hm

end

/-- In whatever order the two sides take their steps, whatever is damaged on the way and
    however often the station is reconfigured: the packets that were read and those on their
    way are together, in order, what was sent; each call has returned what its packet
    deserves; a call that waits is never undefined; and the client is what its parsers make
    of the packets. It holds the configuration of the last answer it has accepted. It shows
    the values that it has accepted last if they were sent before the station was
    reconfigured again, and in particular while the station has not been. -/
theorem conversation_is_faithful {pmuIdCode : ℤ} {timeoutInMs : UInt32}
    {bufferSnd bufferRcv : List UInt8} {station : Station} {streaming : Bool}
    {moves : List (Move F)} {steps : List Unit} {s : Conversation F}
    (serves : station.Serves (UInt16.ofInt pmuIdCode))
    (serve : ∀ g, .reconfigure g ∈ moves → g.Serves (UInt16.ofInt pmuIdCode))
    (h : run converse (Conversation.start (Client.fresh pmuIdCode timeoutInMs bufferSnd bufferRcv)
      station streaming) moves = some (steps, s)) :
    s.heard.map (fun h => h.packet.posting) ++ s.frames.map Packet.posting = s.posted ∧
      s.returned = s.heard.map Heard.returned ∧
      (s.call ≠ none → ∃ t, converse s .turn = some ((), t)) ∧
      (∃ final snd rcv, run handle (Client.fresh pmuIdCode timeoutInMs bufferSnd bufferRcv)
          (s.heard.map Heard.event) = some (s.heard.map Heard.verdict, final) ∧
        s.client = final.withBuffers snd rcv s.client.running) ∧
      (knowledge s.heard = none → s.client.configuration = []) ∧
      ∀ k, knowledge s.heard = some k → s.client.Carries k.answer.station.configuration ∧
        (∀ d, k.sample = some d → k.answer.epoch ≤ d.epoch ∧ d.epoch ≤ s.epoch ∧
          (d.epoch = k.answer.epoch → d.ShownBy s.client)) ∧
        (k.answer.epoch = s.epoch → s.client.Carries s.station.configuration ∧
          ∀ d, k.sample = some d → d.ShownBy s.client) := by
  have faithful := run_faithful serves serve h
  have defined := turn_defined faithful
  have informs := fun k (hk : knowledge s.heard = some k) => faithful_knowledge faithful hk
  obtain ⟨chronicle, returned, final, replay, informed, snd, rcv, client⟩ := faithful
  refine ⟨chronicle.order, returned, defined, ⟨final, snd, rcv, replay, client⟩,
    fun unknown => ?_, informs⟩
  rw [client]
  exact informed.unconfigured unknown

section
attribute [local instance] ExactRational.platform

theorem noChannels_lt {α : Type} : ([] : List α).length < 2 ^ 16 := Nat.two_pow_pos 16

theorem oneRecord_lt (r : PmuRecord) : [r].length < 2 ^ 16 :=
  Nat.one_lt_two_pow (Nat.succ_ne_zero 15)

def frequencyRecord : PmuRecord where
  stationName := letters 83
  idCode := 7
  format := 0xE
  phasors := []
  analogs := []
  digitals := []
  fnom := 1
  cfgcnt := 0
  phasors_lt := noChannels_lt
  analogs_lt := noChannels_lt
  digitals_lt := noChannels_lt

def frequencyConfiguration : Cfg2 := ⟨7, 0, 0, 1000, [frequencyRecord], 50, oneRecord_lt _⟩

theorem frequencyConfiguration_size : frequencyConfiguration.size ≤ BUFER_LENGTH := by
  rw [Cfg2.size, frequencyConfiguration, List.flatMap_singleton, record_length]
  change 24 + 30 ≤ 10000
  decide

def frequencyOnly : Station := ⟨frequencyConfiguration, frequencyConfiguration_size⟩

def voltageAdded : Station := ⟨voltageStation, voltageStation_size⟩

theorem frequencyOnly_serves : frequencyOnly.Serves 7 := by
  refine ⟨rfl, ?_⟩
  intro first hfirst r hr
  obtain rfl := List.mem_singleton.1 hr
  cases hfirst
  exact ⟨Layout.SameCounts.refl _, by decide⟩

theorem voltageAdded_serves : voltageAdded.Serves 7 := ⟨rfl, voltageStation_uniform⟩

def frequencyStart : Conversation ℚ :=
  Conversation.start (Client.fresh 7 0 [] []) frequencyOnly false

/-- The station gets a voltage in front of its frequency while it streams. -/
def misreadMoves : List (Move ℚ) :=
  [.command .request 0, .obey .absent, .turn, .command .start 1, .obey .absent,
    .reconfigure voltageAdded, .send (voltageFrame 1 0) .absent, .listen ⟨0, 0⟩, .turn]

def renewedMoves : List (Move ℚ) :=
  [.command .request 2, .obey .absent, .turn, .send (voltageFrame 2 0) .absent,
    .listen ⟨0, 0⟩, .turn]

def Conversation.knownEpochs (s : Conversation F) : Option (ℕ × Option ℕ) :=
  (knowledge s.heard).map (fun k => (k.answer.epoch, k.sample.map Posting.epoch))

set_option synthInstance.maxSize 1000 in
/-- The magnitude 1 of the new voltage is shown as the frequency of 50 Hz, until the client has
    asked for the new configuration. -/
theorem reconfigured_frequency_misread : ∃ s t k d,
    run converse frequencyStart misreadMoves = some (List.replicate 9 (), s) ∧
      s.returned = [some 0, some 0] ∧ s.knownEpochs = some (0, some 1) ∧
      s.client.configuration.map Configuration.frequency = [1] ∧
    run converse frequencyStart (misreadMoves ++ renewedMoves) =
        some (List.replicate 15 (), t) ∧
      t.returned = [some 0, some 0, some 0, some 0] ∧ knowledge t.heard = some k ∧
      k.sample = some d ∧ d.ShownBy t.client ∧
      t.client.configuration.map Configuration.frequency = [50] := by
  have misread : (run converse frequencyStart misreadMoves).map
      (fun r => (r.1, r.2.returned, r.2.knownEpochs,
        r.2.client.configuration.map Configuration.frequency)) =
        some (List.replicate 9 (), [some 0, some 0], some (0, some 1), [1]) := by
    decide +kernel
  have renewed : (run converse frequencyStart (misreadMoves ++ renewedMoves)).map
      (fun r => (r.1, r.2.returned, r.2.epoch, r.2.knownEpochs,
        r.2.client.configuration.map Configuration.frequency)) =
        some (List.replicate 15 (), [some 0, some 0, some 0, some 0], 1, some (1, some 1),
          [50]) := by
    decide +kernel
  obtain ⟨⟨_, s⟩, first, same⟩ := Option.map_eq_some_iff.1 misread
  obtain ⟨⟨_, t⟩, second, same'⟩ := Option.map_eq_some_iff.1 renewed
  simp only [Prod.mk.injEq] at same same'
  obtain ⟨rfl, returned, epochs, one⟩ := same
  obtain ⟨rfl, returned', epoch, epochs', fifty⟩ := same'
  obtain ⟨k, hk, known⟩ := Option.map_eq_some_iff.1 epochs'
  obtain ⟨answer, sample⟩ := Prod.mk.inj known
  obtain ⟨d, hd, _⟩ := Option.map_eq_some_iff.1 sample
  have serve : ∀ g : Station, .reconfigure g ∈ misreadMoves ++ renewedMoves → g.Serves 7 := by
    intro g hg
    have only : g = voltageAdded := by simpa [misreadMoves, renewedMoves] using hg
    exact only ▸ voltageAdded_serves
  obtain ⟨_, _, _, _, _, informed⟩ :=
    conversation_is_faithful frequencyOnly_serves serve second
  obtain ⟨_, _, current⟩ := informed k hk
  exact ⟨s, t, k, d, first, returned, epochs, one, second, returned', hk, hd,
    (current (answer.trans epoch.symm)).2 d hd, fifty⟩

end
end Khorjin
