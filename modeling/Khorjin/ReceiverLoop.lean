import Khorjin.DamagedFrames
import Khorjin.PrintedLines

set_option autoImplicit false

/-!
# Loops that receive and print

`c37_118ReceiverLoop` prints a frame when it has been accepted. The loop of the example
program prints in any case. Both are run on a connection that damages some of the frames.
-/
namespace Khorjin
open ByteMemory LoopRules RunRules
variable {F D : Type} [Platform F D]

inductive Report (F : Type)
  | sample (lines : List (DataLine F))
  | frameMissed

def receiverPass (s : Client F × List SocketRead) (temps : Temps F) :
    Option (Report F × Client F × List SocketRead) := do
  let (r, self, reads) ← getDataStream temps s.1 s.2
  if r = 0 then
    let lines ← printDataStream self
    some (.sample lines, self, reads)
  else some (.frameMissed, self, reads)

/-- The commands written, the reports printed, and the client. `running`, which another
    thread resets, is true for as many passes as there are local floats. -/
def c37_118ReceiverLoop (self : Client F) (started stopped : UInt64) (passes : List (Temps F))
    (reads : List SocketRead) : Option (List (List UInt8) × List (Report F) × Client F) := do
  let (start, self) := startTransmission self started
  let (reports, self, _) ← run receiverPass (self, reads) passes
  let (stop, self) := stopTransmission self stopped
  some ([start, stop], reports, self)

/-- One pass of the loop of the example program, which ignores the value returned. -/
def examplePass (s : Client F × List SocketRead) (temps : Temps F) :
    Option (List (DataLine F) × Client F × List SocketRead) := do
  let (_, self, reads) ← getDataStream temps s.1 s.2
  let lines ← printDataStream self
  some (lines, self, reads)

/-- The client after an arrival, up to the bytes in its receive buffer. -/
def Client.hear (self : Client F) (d : Arrival F) : Client F :=
  if d.intact then self.take d.sent else self

theorem SentData.Fits.fillRcv {self : Client F} {f : SentData} (fits : f.Fits self)
    (l : List UInt8) : f.Fits (self.fillRcv l) :=
  ⟨fits.idcode, fits.arrays, fits.layouts⟩

theorem getDataStream_intact {self : Client F} {x : Transmitted F} {reads rest : List SocketRead}
    (fits : x.frame.Fits self) (next : readLoop reads =
      some ((x.frame.encode.length : ℤ), x.frame.encode, rest)) :
    getDataStream x.temps self reads = some (0, (self.take x).fillRcv x.frame.encode, rest) := by
  have parsed : parseDataFrame x.temps (self.fillRcv x.frame.encode)
      (Memory.zeroFilled BUFER_LENGTH x.frame.encode) x.frame.encode.length =
        some (0, (self.take x).fillRcv x.frame.encode) := (fits.fillRcv x.frame.encode).takes
  simp only [getDataStream, next, parsed, Option.bind_eq_bind, Option.bind_some]

theorem getDataStream_damaged {self : Client F} {f : SentData} {l : List UInt8}
    {reads rest : List SocketRead} (room : f.size ≤ BUFER_LENGTH) (damaged : Damaged f.encode l)
    (next : readLoop reads = some ((l.length : ℤ), l, rest)) (t : Temps F) :
    getDataStream t self reads = some (-1, self.fillRcv l, rest) := by
  have long : 2 ≤ f.encode.length := le_trans (by decide) (sixteen_le_length f)
  have size : l.length ≤ BUFER_LENGTH := le_trans damaged.length_le (f.encode_length ▸ room)
  have rejected := (handle_iff (self.fillRcv l)
    (.dataFrame (.ofBytes l (damaged.two_le long) size) t) _).2
      (.inr ⟨damaged.rejected long (sent_buffer_passes room), rfl⟩)
  have parsed : parseDataFrame t (self.fillRcv l) (Memory.zeroFilled BUFER_LENGTH l) l.length =
      some (-1, self.fillRcv l) := rejected
  simp only [getDataStream, next, parsed, Option.bind_eq_bind, Option.bind_some]

theorem getDataStream_arrival {self : Client F} {d : Arrival F} {reads rest : List SocketRead}
    (fits : d.sent.frame.Fits self)
    (next : readLoop reads = some ((d.bytes.length : ℤ), d.bytes, rest)) :
    getDataStream d.sent.temps self reads =
      some (if d.intact then 0 else -1, (self.hear d).fillRcv d.bytes, rest) := by
  cases h : d.intact with
  | true =>
    rw [Arrival.eq_of_intact h] at next ⊢
    simp only [Client.hear, h, if_true]
    exact getDataStream_intact fits next
  | false =>
    simp only [Client.hear, h, Bool.false_eq_true, if_false]
    exact getDataStream_damaged d.sent.room (Arrival.damaged_of_not_intact h) next d.sent.temps

theorem SentData.Fits.hear {self : Client F} {d : Arrival F} {f : SentData}
    (fits : d.sent.frame.Fits self) (next : f.Fits self) : f.Fits (self.hear d) := by
  rw [Client.hear]
  split_ifs
  · exact fits.keep next
  · exact next

def Client.withBuffers (self : Client F) (bufferSnd bufferRcv : List UInt8) (running : Bool) :
    Client F :=
  { self with bufferSnd, bufferRcv, running }

section
variable (self : Client F) (snd rcv : List UInt8) (running : Bool)

theorem fillRcv_withBuffers (l : List UInt8) : (self.withBuffers snd rcv running).fillRcv l =
    self.withBuffers snd (clearedBuffer l) running := rfl

theorem hear_withBuffers (d : Arrival F) :
    (self.withBuffers snd rcv running).hear d = (self.hear d).withBuffers snd rcv running := by
  rw [Client.hear, Client.hear]
  split_ifs <;> rfl

theorem configuration_withBuffers :
    (self.withBuffers snd rcv running).configuration = self.configuration := rfl

theorem printDataStream_withBuffers :
    printDataStream (self.withBuffers snd rcv running) = printDataStream self := rfl

end

def Client.hearAll (self : Client F) (arrivals : List (Arrival F)) : Client F :=
  arrivals.foldl Client.hear self

/-- One output for each arrival, from the client that it meets. -/
def Client.outputs {ρ : Type} (out : Client F → Arrival F → ρ) :
    Client F → List (Arrival F) → List ρ
  | _, [] => []
  | self, d :: arrivals => out self d :: (self.hear d).outputs out arrivals

theorem run_arrivals {ρ : Type}
    {pass : Client F × List SocketRead → Temps F → Option (ρ × Client F × List SocketRead)}
    {out : Client F → Arrival F → ρ} (I : Client F → Prop)
    (spec : ∀ self d reads rest snd rcv running, I self → d.sent.frame.Fits self →
      readLoop reads = some ((d.bytes.length : ℤ), d.bytes, rest) →
        pass (self.withBuffers snd rcv running, reads) d.sent.temps =
          some (out self d, (self.hear d).withBuffers snd (clearedBuffer d.bytes) running, rest))
    (keep : ∀ self d, d.sent.frame.Fits self → I self → I (self.hear d)) {self : Client F}
    {arrivals : List (Arrival F)} {reads : List SocketRead} (snd rcv : List UInt8)
    (running : Bool) (start : I self)
    (fits : ∀ d ∈ arrivals, d.sent.frame.Fits self) (stays : StaysOpen reads)
    (arrive : pieces reads = arrivals.map Arrival.bytes) :
    ∃ rcv' rest, run pass (self.withBuffers snd rcv running, reads)
        (arrivals.map (fun d => d.sent.temps)) =
      some (self.outputs out arrivals, (self.hearAll arrivals).withBuffers snd rcv' running,
        rest) := by
  induction arrivals generalizing self reads rcv with
  | nil => exact ⟨rcv, reads, rfl⟩
  | cons d arrivals ih =>
    obtain ⟨reads', loop, tail, stays'⟩ := readLoop_piece stays arrive
    have first := fits d List.mem_cons_self
    have one := spec self d reads reads' snd rcv running start first loop
    have later : ∀ d' ∈ arrivals, d'.sent.frame.Fits (self.hear d) :=
      fun d' hd' => first.hear (fits d' (List.mem_cons_of_mem _ hd'))
    obtain ⟨rcv', rest, h⟩ := ih _ (keep self d first start) later stays' tail
    exact ⟨rcv', rest, (run_cons_iff _ _ _ _ _ _).2 ⟨_, _, _, one, h, rfl⟩⟩

def Client.sampleLines (self : Client F) (x : Transmitted F) : List (DataLine F) :=
  (self.take x).dataLines ((self.take x).dataTimeStamp.parsedTime.get rfl)

theorem printDataStream_take {self : Client F} {x : Transmitted F} (fits : x.frame.Fits self) :
    printDataStream (self.take x) = some (self.sampleLines x) :=
  (printDataStream_iff _ _).2 ⟨_, rfl, (fits.keep fits).arrays.arraysInside, rfl⟩

def Client.report (self : Client F) (d : Arrival F) : Report F :=
  if d.intact then .sample (self.sampleLines d.sent) else .frameMissed

theorem receiverPass_arrival {self : Client F} {d : Arrival F} {reads rest : List SocketRead}
    (snd rcv : List UInt8) (running : Bool) (fits : d.sent.frame.Fits self)
    (next : readLoop reads = some ((d.bytes.length : ℤ), d.bytes, rest)) :
    receiverPass (self.withBuffers snd rcv running, reads) d.sent.temps =
      some (self.report d, (self.hear d).withBuffers snd (clearedBuffer d.bytes) running,
        rest) := by
  have fits' : d.sent.frame.Fits (self.withBuffers snd rcv running) :=
    ⟨fits.idcode, fits.arrays, fits.layouts⟩
  rw [receiverPass, getDataStream_arrival fits' next, hear_withBuffers, fillRcv_withBuffers]
  cases h : d.intact with
  | true =>
    have lines : printDataStream (self.hear d) = some (self.sampleLines d.sent) := by
      rw [Client.hear, if_pos h]
      exact printDataStream_take fits
    simp [Client.report, h, printDataStream_withBuffers, lines]
  | false => simp [Client.report, h]

theorem hearAll_eq (self : Client F) (arrivals : List (Arrival F)) : self.hearAll arrivals =
    ((arrivals.filter Arrival.intact).map Arrival.sent).foldl Client.take self := by
  induction arrivals generalizing self with
  | nil => rfl
  | cons d arrivals ih =>
    rw [Client.hearAll, List.foldl_cons, ← Client.hearAll, ih]
    cases h : d.intact <;> simp [Client.hear, h]

theorem hearAll_idcode (self : Client F) (arrivals : List (Arrival F)) :
    (self.hearAll arrivals).idcode = self.idcode := by
  rw [hearAll_eq]
  induction (arrivals.filter Arrival.intact).map Arrival.sent generalizing self with
  | nil => rfl
  | cons x frames ih => exact ih (self.take x)

theorem commandFrame_congr {self self' : Client F} (h : self'.idcode = self.idcode)
    (timeStamp : UInt64) (cmd : UInt8) :
    commandFrame self' timeStamp cmd = commandFrame self timeStamp cmd := by
  rw [commandFrame, commandFrame, h]

/-- On a connection that damages frames the receiver loop prints the sample of every intact
    frame and reports every damaged one as missed, in the order in which they were sent. The
    client is left as the intact frames alone would leave it. -/
theorem receiver_loop_on_damaging_link {self : Client F} {arrivals : List (Arrival F)}
    {reads : List SocketRead} (fits : ∀ d ∈ arrivals, d.sent.frame.Fits self)
    (stays : StaysOpen reads) (arrive : pieces reads = arrivals.map Arrival.bytes)
    (started stopped : UInt64) :
    ∃ final, c37_118ReceiverLoop self started stopped (arrivals.map (fun d => d.sent.temps))
        reads = some ([commandFrame self started 0x02, commandFrame self stopped 0x01],
          self.outputs Client.report arrivals, final) ∧
      ∃ bufferSnd bufferRcv, final =
        (((arrivals.filter Arrival.intact).map Arrival.sent).foldl Client.take self).withBuffers
          bufferSnd bufferRcv false := by
  have spec : ∀ (self : Client F) d reads rest snd rcv running, True →
      d.sent.frame.Fits self → readLoop reads = some ((d.bytes.length : ℤ), d.bytes, rest) →
        receiverPass (self.withBuffers snd rcv running, reads) d.sent.temps = some (self.report d,
          (self.hear d).withBuffers snd (clearedBuffer d.bytes) running, rest) :=
    fun _ _ _ _ snd rcv running _ => receiverPass_arrival snd rcv running
  obtain ⟨rcv, rest, loop⟩ := run_arrivals (fun _ => True) spec (fun _ _ _ _ => trivial)
    (clearedBuffer (commandFrame self started 0x02)) self.bufferRcv true trivial fits stays arrive
  have begins : startTransmission self started = (commandFrame self started 0x02,
      self.withBuffers (clearedBuffer (commandFrame self started 0x02)) self.bufferRcv true) := rfl
  have ends : ∀ (s : Client F) snd rcv running,
      stopTransmission (s.withBuffers snd rcv running) stopped = (commandFrame s stopped 0x01,
        s.withBuffers (clearedBuffer (commandFrame s stopped 0x01)) rcv false) :=
    fun _ _ _ _ => rfl
  have stop := commandFrame_congr (hearAll_idcode self arrivals) stopped 0x01
  rw [← hearAll_eq]
  refine ⟨(self.hearAll arrivals).withBuffers (clearedBuffer (commandFrame self stopped 0x01)) rcv
    false, ?_, _, _, rfl⟩
  simp only [c37_118ReceiverLoop, begins, loop, Option.bind_eq_bind, Option.bind_some, ends, stop]

def Client.currentLines (self : Client F) : List (DataLine F) := (printDataStream self).getD []

theorem hear_prints {self : Client F} {d : Arrival F} (fits : d.sent.frame.Fits self)
    (prints : d.intact = true ∨ (printDataStream self).isSome) :
    printDataStream (self.hear d) = some (self.hear d).currentLines ∧
      (d.intact = true → (self.hear d).currentLines = self.sampleLines d.sent) := by
  cases h : d.intact with
  | true =>
    have lines : printDataStream (self.hear d) = some (self.sampleLines d.sent) := by
      rw [Client.hear, if_pos h]
      exact printDataStream_take fits
    have current : (self.hear d).currentLines = self.sampleLines d.sent := by
      rw [Client.currentLines, lines]
      rfl
    exact ⟨lines.trans (congrArg some current.symm), fun _ => current⟩
  | false =>
    obtain ⟨lines, old⟩ := Option.isSome_iff_exists.1 (prints.resolve_left (by simp [h]))
    have same : self.hear d = self := by rw [Client.hear, h]; rfl
    rw [same]
    exact ⟨by rw [Client.currentLines, old]; rfl, fun impossible => by cases impossible⟩

theorem examplePass_arrival {self : Client F} {d : Arrival F} {reads rest : List SocketRead}
    (snd rcv : List UInt8) (running : Bool)
    (prints : d.intact = true ∨ (printDataStream self).isSome) (fits : d.sent.frame.Fits self)
    (next : readLoop reads = some ((d.bytes.length : ℤ), d.bytes, rest)) :
    examplePass (self.withBuffers snd rcv running, reads) d.sent.temps =
      some ((self.hear d).currentLines,
        (self.hear d).withBuffers snd (clearedBuffer d.bytes) running, rest) := by
  have fits' : d.sent.frame.Fits (self.withBuffers snd rcv running) :=
    ⟨fits.idcode, fits.arrays, fits.layouts⟩
  have lines := (hear_prints fits prints).1
  rw [examplePass, getDataStream_arrival fits' next, hear_withBuffers, fillRcv_withBuffers]
  simp only [Option.bind_eq_bind, Option.bind_some, printDataStream_withBuffers, lines]

theorem printed_get (self : Client F) {arrivals : List (Arrival F)} {k : ℕ}
    (hk : k ≤ arrivals.length) :
    (self.currentLines :: self.outputs (fun s x => (s.hear x).currentLines) arrivals)[k]? =
      some (self.hearAll (arrivals.take k)).currentLines := by
  induction arrivals generalizing self k with
  | nil =>
    obtain rfl := Nat.le_zero.1 hk
    rfl
  | cons d arrivals ih =>
    cases k with
    | zero => rfl
    | succ k => exact ih (self.hear d) (Nat.le_of_succ_le_succ hk)

theorem hearAll_take_succ (self : Client F) {arrivals : List (Arrival F)} {k : ℕ}
    {d : Arrival F} (hd : arrivals[k]? = some d) :
    self.hearAll (arrivals.take (k + 1)) = (self.hearAll (arrivals.take k)).hear d := by
  rw [List.take_add_one, hd, Client.hearAll, List.foldl_append]
  rfl

theorem SentData.Fits.hearAll {self : Client F} {arrivals : List (Arrival F)} {f : SentData}
    (fits : ∀ d ∈ arrivals, d.sent.frame.Fits self) (next : f.Fits self) :
    f.Fits (self.hearAll arrivals) := by
  rw [hearAll_eq]
  refine foldl_take_fits (fun x hx => ?_) next
  obtain ⟨d, hd, rfl⟩ := List.mem_map.1 hx
  exact fits d (List.mem_filter.1 hd).1

theorem exampleLoop_arrivals {self : Client F} {d : Arrival F} {arrivals : List (Arrival F)}
    {reads : List SocketRead} (snd rcv : List UInt8) (running : Bool)
    (fresh : self.dataTimeStamp.parsedTime = none)
    (fits : ∀ x ∈ d :: arrivals, x.sent.frame.Fits self) (stays : StaysOpen reads)
    (arrive : pieces reads = (d :: arrivals).map Arrival.bytes) :
    (d.intact = false → run examplePass (self.withBuffers snd rcv running, reads)
      ((d :: arrivals).map (fun x => x.sent.temps)) = none) ∧
    (d.intact = true → ∃ printed final,
      run examplePass (self.withBuffers snd rcv running, reads)
          ((d :: arrivals).map (fun x => x.sent.temps)) = some (printed, final) ∧
        printed[0]? = some (self.sampleLines d.sent) ∧
        ∀ k x, arrivals[k]? = some x → printed[k + 1]? =
          if x.intact then some ((self.hearAll ((d :: arrivals).take (k + 1))).sampleLines x.sent)
          else printed[k]?) := by
  obtain ⟨reads', loop, tail, stays'⟩ := readLoop_piece stays arrive
  have first := fits d List.mem_cons_self
  constructor
  · intro damaged
    have fits' : d.sent.frame.Fits (self.withBuffers snd rcv running) :=
      ⟨first.idcode, first.arrays, first.layouts⟩
    have unprinted : printDataStream self = none := by
      rw [printDataStream, fresh]
      rfl
    have same : self.hear d = self := by rw [Client.hear, damaged]; rfl
    have pass : examplePass (self.withBuffers snd rcv running, reads) d.sent.temps = none := by
      rw [examplePass, getDataStream_arrival fits' loop, hear_withBuffers, fillRcv_withBuffers]
      simp only [Option.bind_eq_bind, Option.bind_some, printDataStream_withBuffers, same,
        unprinted, Option.bind_none]
    simp only [List.map_cons, run, pass, Option.bind_eq_bind, Option.bind_none]
  · intro intact
    have one := examplePass_arrival snd rcv running (.inl intact) first loop
    obtain ⟨lines, shown⟩ := hear_prints first (.inl intact)
    have later : ∀ x ∈ arrivals, x.sent.frame.Fits (self.hear d) :=
      fun x hx => first.hear (fits x (List.mem_cons_of_mem _ hx))
    have spec : ∀ (s : Client F) x reads rest snd rcv running, (printDataStream s).isSome →
        x.sent.frame.Fits s → readLoop reads = some ((x.bytes.length : ℤ), x.bytes, rest) →
          examplePass (s.withBuffers snd rcv running, reads) x.sent.temps =
            some ((s.hear x).currentLines,
              (s.hear x).withBuffers snd (clearedBuffer x.bytes) running, rest) :=
      fun _ _ _ _ snd rcv running prints => examplePass_arrival snd rcv running (.inr prints)
    have keep : ∀ (s : Client F) (x : Arrival F), x.sent.frame.Fits s →
        (printDataStream s).isSome → (printDataStream (s.hear x)).isSome := by
      intro s x fits prints
      rw [(hear_prints fits (.inr prints)).1]
      rfl
    have starts : (printDataStream (self.hear d)).isSome := by
      rw [lines]
      rfl
    obtain ⟨rcv', rest, h⟩ := run_arrivals _ spec keep snd (clearedBuffer d.bytes) running starts
      later stays' tail
    refine ⟨_, _, (run_cons_iff _ _ _ _ _ _).2 ⟨_, _, _, one, h, rfl⟩, ?_, ?_⟩
    · exact congrArg some (shown intact)
    · intro k x hx
      have lt := (List.getElem?_eq_some_iff.1 hx).choose
      have before : ∀ y ∈ arrivals.take k, y.sent.frame.Fits (self.hear d) :=
        fun y hy => later y (List.mem_of_mem_take hy)
      have fitsX := SentData.Fits.hearAll before (later x (List.mem_of_getElem? hx))
      have behind : self.hearAll ((d :: arrivals).take (k + 1)) =
          (self.hear d).hearAll (arrivals.take k) := rfl
      rw [printed_get _ (Nat.succ_le_of_lt lt), printed_get _ lt.le, hearAll_take_succ _ hx, behind]
      cases hi : x.intact with
      | true => rw [if_pos rfl, (hear_prints fitsX (.inl hi)).2 hi]
      | false => rw [if_neg Bool.false_ne_true, Client.hear, hi, if_neg Bool.false_ne_true]

/-- Before the first sample the loop of the example program does not survive a damaged frame.
    From then on it prints the sample before once more for every one. -/
theorem example_repeats_old_samples {self : Client F} {d : Arrival F}
    {arrivals : List (Arrival F)} {reads : List SocketRead}
    (fresh : self.dataTimeStamp.parsedTime = none)
    (fits : ∀ x ∈ d :: arrivals, x.sent.frame.Fits self) (stays : StaysOpen reads)
    (arrive : pieces reads = (d :: arrivals).map Arrival.bytes) :
    (d.intact = false →
      run examplePass (self, reads) ((d :: arrivals).map (fun x => x.sent.temps)) = none) ∧
    (d.intact = true → ∃ printed final,
      run examplePass (self, reads) ((d :: arrivals).map (fun x => x.sent.temps)) =
          some (printed, final) ∧
        printed[0]? = some (self.sampleLines d.sent) ∧
        ∀ k x, arrivals[k]? = some x → printed[k + 1]? =
          if x.intact then some ((self.hearAll ((d :: arrivals).take (k + 1))).sampleLines x.sent)
          else printed[k]?) :=
  exampleLoop_arrivals self.bufferSnd self.bufferRcv self.running fresh fits stays arrive

section
attribute [local instance] ExactRational.platform

def voltageIntact : Arrival ℚ :=
  ⟨voltageSent 10 1, (voltageSent 10 1).frame.encode, .inl rfl⟩

def voltageCut : Arrival ℚ :=
  ⟨voltageSent 11 2, (voltageSent 11 2).frame.encode.take 10,
    .inr (.cut (by decide +kernel) (List.take_prefix _ _) (by decide +kernel))⟩

def voltageReads : List SocketRead :=
  [.received ⟨voltageIntact.bytes, by decide +kernel, by decide +kernel⟩, .again,
    .received ⟨voltageCut.bytes, by decide +kernel, by decide +kernel⟩]

theorem voltageArrivals_fit : ∀ d ∈ [voltageIntact, voltageCut],
    d.sent.frame.Fits voltageClient := by
  intro d hd
  rcases List.mem_cons.1 hd with rfl | hd
  · exact voltageFrame_fits 10 1
  · obtain rfl := List.mem_singleton.1 hd
    exact voltageFrame_fits 11 2

theorem voltageReads_stayOpen : StaysOpen voltageReads := by
  simp [StaysOpen, voltageReads]

theorem cut_frame_missed :
    ∃ lines final, c37_118ReceiverLoop voltageClient 1 2 [⟨0, 0⟩, ⟨0, 0⟩] voltageReads =
        some ([commandFrame voltageClient 1 0x02, commandFrame voltageClient 2 0x01],
          [.sample lines, .frameMissed], final) ∧
      final.configuration.map Configuration.statWord = [1] := by
  have arrive : pieces voltageReads = [voltageIntact, voltageCut].map Arrival.bytes := rfl
  obtain ⟨final, printed, snd, rcv, left⟩ := receiver_loop_on_damaging_link
    voltageArrivals_fit voltageReads_stayOpen arrive 1 2
  have reports : voltageClient.outputs Client.report [voltageIntact, voltageCut] =
      [.sample (voltageClient.sampleLines (voltageSent 10 1)), .frameMissed] := by
    have intact : voltageIntact.intact = true := by decide +kernel
    have cut : voltageCut.intact = false := by decide +kernel
    simp only [Client.outputs, Client.report, intact, cut, if_true, Bool.false_eq_true, if_false]
    rfl
  rw [reports] at printed
  have last : ((([voltageIntact, voltageCut].filter Arrival.intact).map Arrival.sent).foldl
      Client.take voltageClient).configuration.map Configuration.statWord = [1] := by
    decide +kernel
  refine ⟨_, final, printed, ?_⟩
  rw [left, configuration_withBuffers, last]

theorem cut_frame_prints_again :
    ∃ printed final, run examplePass (voltageClient, voltageReads) [⟨0, 0⟩, ⟨0, 0⟩] =
        some (printed, final) ∧
      printed[0]? = some (voltageClient.sampleLines (voltageSent 10 1)) ∧
      printed[1]? = printed[0]? := by
  have fresh : voltageClient.dataTimeStamp.parsedTime = none := rfl
  have arrive : pieces voltageReads = [voltageIntact, voltageCut].map Arrival.bytes := rfl
  obtain ⟨_, later⟩ :=
    example_repeats_old_samples fresh voltageArrivals_fit voltageReads_stayOpen arrive
  obtain ⟨printed, final, h, first, rest⟩ := later (by decide +kernel)
  exact ⟨printed, final, h, first, rest 0 voltageCut rfl⟩

end
end Khorjin
