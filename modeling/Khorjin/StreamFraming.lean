import Khorjin.ArrayInvariant
import Khorjin.ClientCalls
import Khorjin.DataHistory
import Khorjin.Segmentation

set_option autoImplicit false

/-!
# A stream of data frames read in pieces

Repeated calls of `getDataStream` on a connection that delivers a stream of data
frames cut into pieces. One call takes one piece for one frame.
-/
namespace Khorjin
open ByteMemory LoopRules RunRules Segmentation
variable {F D : Type} [Platform F D]

def pieces : List SocketRead → List (List UInt8)
  | [] => []
  | .received chunk :: reads => chunk.data :: pieces reads
  | _ :: reads => pieces reads

def StaysOpen (reads : List SocketRead) : Prop := ∀ r ∈ reads, r ≠ .failed

theorem readLoop_piece {reads : List SocketRead} {c : List UInt8} {cs : List (List UInt8)}
    (stays : StaysOpen reads) (next : pieces reads = c :: cs) :
    ∃ rest, readLoop reads = some ((c.length : ℤ), c, rest) ∧ pieces rest = cs ∧
      StaysOpen rest := by
  induction reads with
  | nil => simp [pieces] at next
  | cons r reads ih =>
    have rest : StaysOpen reads := fun x hx => stays x (List.mem_cons_of_mem _ hx)
    cases r with
    | again => exact ih rest next
    | failed => exact absurd rfl (stays .failed List.mem_cons_self)
    | received chunk =>
      obtain ⟨rfl, rfl⟩ := List.cons.inj next
      exact ⟨reads, rfl, rfl, rest⟩

theorem piece_bounds {reads : List SocketRead} {c : List UInt8} (h : c ∈ pieces reads) :
    0 < c.length ∧ c.length ≤ BUFER_LENGTH := by
  induction reads with
  | nil => simp [pieces] at h
  | cons r reads ih =>
    cases r with
    | again => exact ih h
    | failed => exact ih h
    | received chunk =>
      rcases List.mem_cons.1 h with rfl | h
      · exact ⟨chunk.nonempty, chunk.fits⟩
      · exact ih h

def SizeMatches (c : List UInt8) : Prop :=
  0 < c.length ∧ (word16 (Memory.zeroFilled BUFER_LENGTH c).byte 2).toNat = c.length

theorem sizeMatches_four_le {c : List UInt8} (h : SizeMatches c) : 4 ≤ c.length := by
  obtain ⟨pos, size⟩ := h
  by_contra lt
  have last : (Memory.zeroFilled BUFER_LENGTH c).byte (2 + 1) = 0 := by
    rw [Memory.zeroFilled_byte c (by decide)]
    simp [List.getD_eq_getElem?_getD, List.getElem?_eq_none (show c.length ≤ 3 by omega)]
  have word := word16_toNat (Memory.zeroFilled BUFER_LENGTH c).byte 2
  have zero : (0 : UInt8).toNat = 0 := rfl
  rw [last, zero] at word
  omega

theorem getD_of_prefix {l l' : List UInt8} (h : l <+: l') {i : ℕ} (hi : i < l.length) :
    l.getD i 0 = l'.getD i 0 := by
  obtain ⟨rest, rfl⟩ := h
  rw [List.getD_eq_getElem?_getD, List.getD_eq_getElem?_getD, List.getElem?_append_left hi]

/-- The size word of a frame delimits it. -/
theorem sizeMatches_delimits {f : List UInt8} (hf : SizeMatches f) : Delimits SizeMatches f := by
  intro c rest hc begins
  have four := sizeMatches_four_le hc
  have four' := sizeMatches_four_le hf
  have whole : f <+: f ++ rest := List.prefix_append f rest
  have same : ∀ i < 4, (Memory.zeroFilled BUFER_LENGTH c).byte i =
      (Memory.zeroFilled BUFER_LENGTH f).byte i := by
    intro i hi
    have inside : i < BUFER_LENGTH := by
      unfold BUFER_LENGTH
      omega
    rw [Memory.zeroFilled_byte c inside, Memory.zeroFilled_byte f inside,
      getD_of_prefix begins (by omega), getD_of_prefix whole (by omega)]
  have size : word16 (Memory.zeroFilled BUFER_LENGTH c).byte 2 =
      word16 (Memory.zeroFilled BUFER_LENGTH f).byte 2 :=
    word16_congr (fun i _ hi => same i (by omega))
  have length : c.length = f.length := by
    rw [← hc.2, size, hf.2]
  have le : c <+: f := List.prefix_of_prefix_length_le begins whole length.le
  exact le.eq_of_length length

/-- A call of `getDataStream`, which meets some indeterminate values in its local floats. -/
def callDataStream (s : Client F × List SocketRead) (temps : Temps F) :
    Option (ℤ × Client F × List SocketRead) :=
  getDataStream temps s.1 s.2

structure DataFrameFor (installed : Client F) (l : List UInt8) : Prop where
  size : l.length = installed.expectedSize
  fits : l.length ≤ BUFER_LENGTH
  passes : FramePasses 0x01 installed.idcode (Memory.zeroFilled BUFER_LENGTH l).byte l.length

def Client.receiveData (self : Client F) (temps : Temps F) (l : List UInt8) : Client F :=
  (self.fillRcv l).storeData temps (Memory.zeroFilled BUFER_LENGTH l).byte

theorem sixteen_le_expectedSize (self : Client F) : 16 ≤ self.expectedSize :=
  Nat.le_add_right 16 _

theorem DataFrameFor.sizeMatches {self : Client F} {l : List UInt8} (h : DataFrameFor self l) :
    SizeMatches l := by
  obtain ⟨_, _, _, size, _⟩ := h.passes
  have long := sixteen_le_expectedSize self
  exact ⟨by rw [h.size]; omega, size⟩

theorem layouts_storeData (self : Client F) (t : Temps F) (m : ℕ → UInt8) :
    (self.storeData t m).layouts = self.layouts :=
  sweep_map_of_keep _ _ (fun _ c => layout_blockAt c m _ _)

theorem receiveData_expects (self : Client F) (t : Temps F) (l f : List UInt8) :
    DataFrameFor (self.receiveData t l) f ↔ DataFrameFor self f := by
  have same : (self.receiveData t l).expectedSize = self.expectedSize := by
    rw [expectedSize_eq, expectedSize_eq, Client.dataEnd, Client.blockBase, Client.receiveData,
      layouts_storeData]
    rfl
  constructor
  · rintro ⟨size, fits, passes⟩
    exact ⟨size.trans same, fits, passes⟩
  · rintro ⟨size, fits, passes⟩
    exact ⟨size.trans same.symm, fits, passes⟩

theorem callDataStream_frame {self : Client F} {reads rest : List SocketRead} {l : List UInt8}
    (exactly : self.ArraysMatch) (frame : DataFrameFor self l)
    (next : readLoop reads = some ((l.length : ℤ), l, rest)) (t : Temps F) :
    callDataStream (self, reads) t = some (0, self.receiveData t l, rest) := by
  have long := sixteen_le_expectedSize self
  have size := expectedSize_eq self
  have fits := frame.fits
  have length := frame.size
  have accepted : parseDataFrame t (self.fillRcv l) (Memory.zeroFilled BUFER_LENGTH l) l.length =
      some (0, self.receiveData t l) := by
    have inside : (self.fillRcv l).ArraysInside := exactly.arraysInside
    refine parseDataFrame_of_pass (by omega) ?_ inside ?_ ?_
    · exact frame.passes
    · exact Memory.zeroFilled_defined l fits
    · apply Memory.zeroFilled_defined l
      change self.dataEnd ≤ BUFER_LENGTH
      omega
  simp only [callDataStream, getDataStream, next, accepted, Option.bind_eq_bind, Option.bind_some]

theorem callDataStream_accepts {self : Client F} {s : Client F × List SocketRead}
    {reads : List SocketRead} {c : List UInt8} {cs : List (List UInt8)} {t : Temps F}
    (stays : StaysOpen reads) (next : pieces reads = c :: cs)
    (call : callDataStream (self, reads) t = some (0, s)) : SizeMatches c := by
  obtain ⟨rest, loop, _, _⟩ := readLoop_piece stays next
  have member : c ∈ pieces reads := by
    rw [next]
    exact List.mem_cons_self
  simp only [callDataStream, getDataStream, loop, Option.bind_eq_bind, Option.bind_some,
    Option.bind_eq_some_iff] at call
  obtain ⟨⟨r, s'⟩, run, hr⟩ := call
  cases hr
  obtain ⟨⟨header, check⟩, _⟩ := checkFrame_of_accepted run
  exact ⟨(piece_bounds member).1, by exact_mod_cast checkFrame_frameSize check⟩

theorem run_accepts {self : Client F} {s : Client F × List SocketRead} {reads : List SocketRead}
    {calls : List (Temps F)} {returned : List ℤ} (stays : StaysOpen reads)
    (count : calls.length = (pieces reads).length)
    (h : run callDataStream (self, reads) calls = some (returned, s))
    (zeros : ∀ r ∈ returned, r = 0) : ∀ c ∈ pieces reads, SizeMatches c := by
  induction calls generalizing self reads returned with
  | nil =>
    have nothing : pieces reads = [] := List.length_eq_zero_iff.1 count.symm
    simp [nothing]
  | cons t calls ih =>
    cases next : pieces reads with
    | nil => simp [next] at count
    | cons c cs =>
      obtain ⟨r, ⟨self', reads'⟩, returned', call, later, rfl⟩ := (run_cons_iff _ _ _ _ _ _).1 h
      obtain rfl : r = 0 := zeros r List.mem_cons_self
      have first := callDataStream_accepts stays next call
      obtain ⟨rest, loop, tail, stays'⟩ := readLoop_piece stays next
      obtain rfl : reads' = rest := by
        simp only [callDataStream, getDataStream, loop, Option.bind_eq_bind, Option.bind_some,
          Option.bind_eq_some_iff] at call
        obtain ⟨⟨_, _⟩, _, hr⟩ := call
        cases hr
        rfl
      have count' : calls.length = (pieces reads').length := by
        rw [tail]
        simpa [next] using count
      have others := ih stays' count' later (fun r hr => zeros r (List.mem_cons_of_mem _ hr))
      rw [tail] at others
      intro d hd
      rcases List.mem_cons.1 hd with rfl | hd
      · exact first
      · exact others d hd

def Client.receiveAll (self : Client F) : List (Temps F) → List (List UInt8) → Client F
  | t :: calls, f :: frames => (self.receiveData t f).receiveAll calls frames
  | _, _ => self

theorem run_frames {self : Client F} {reads : List SocketRead} {frames : List (List UInt8)}
    {calls : List (Temps F)} (exactly : self.ArraysMatch)
    (valid : ∀ f ∈ frames, DataFrameFor self f) (stays : StaysOpen reads)
    (whole : pieces reads = frames) (count : calls.length = frames.length) :
    ∃ rest, run callDataStream (self, reads) calls =
      some (List.replicate frames.length 0, self.receiveAll calls frames, rest) := by
  induction frames generalizing self reads calls with
  | nil =>
    obtain rfl : calls = [] := List.length_eq_zero_iff.1 count
    exact ⟨reads, rfl⟩
  | cons f frames ih =>
    cases calls with
    | nil => simp at count
    | cons t calls =>
      obtain ⟨reads', loop, tail, stays'⟩ := readLoop_piece stays whole
      have call := callDataStream_frame exactly (valid f List.mem_cons_self) loop t
      have exactly' : (self.receiveData t f).ArraysMatch := storeData_arraysMatch exactly _ _
      have valid' : ∀ g ∈ frames, DataFrameFor (self.receiveData t f) g := fun g hg =>
        (receiveData_expects self t f g).2 (valid g (List.mem_cons_of_mem _ hg))
      obtain ⟨rest, later⟩ := ih exactly' valid' stays' tail (by simpa using count)
      exact ⟨rest, (run_cons_iff _ _ _ _ _ _).2 ⟨0, _, _, call, later, rfl⟩⟩

/-- A stream of data frames is accepted frame by frame when every read delivers exactly one
    frame, and only then: with any other cut some call does not return 0, and the pieces
    that are accepted are not the frames. -/
theorem stream_accepted_iff_cut_at_frames {self : Client F} {frames : List (List UInt8)}
    {reads : List SocketRead} {calls : List (Temps F)} (exactly : self.ArraysMatch)
    (valid : ∀ f ∈ frames, DataFrameFor self f) (stays : StaysOpen reads)
    (cut : (pieces reads).flatten = frames.flatten)
    (count : calls.length = (pieces reads).length) :
    (pieces reads = frames → ∃ rest, run callDataStream (self, reads) calls =
      some (List.replicate frames.length 0, self.receiveAll calls frames, rest)) ∧
    (∀ returned s, run callDataStream (self, reads) calls = some (returned, s) →
      (∀ r ∈ returned, r = 0) ∨ kept (fun r => r == 0) (pieces reads) returned = frames →
        pieces reads = frames) := by
  have nonempty : ∀ c ∈ pieces reads, c ≠ [] := fun c hc =>
    List.length_pos_iff.1 (piece_bounds hc).1
  constructor
  · intro whole
    exact run_frames exactly valid stays whole (count.trans (congrArg List.length whole))
  · rintro returned s h (zeros | accepted)
    · exact eq_of_all_accepted (fun f hf => List.length_pos_iff.1 (valid f hf).sizeMatches.1)
        (fun f hf => sizeMatches_delimits (valid f hf).sizeMatches) nonempty cut
        (run_accepts stays count h zeros)
    · have sub := kept_sublist (fun r : ℤ => r == 0) (pieces reads) returned
      rw [accepted] at sub
      exact (eq_of_sublist sub nonempty (congrArg List.length cut).symm).symm

section
attribute [local instance] ExactRational.platform

def plainClient : Client ℚ :=
  { Client.fresh 7 0 [] [] with
    numPmu := 1
    timeBase := 1000
    configuration := [Configuration.zero] }

def plainFrame : List UInt8 :=
  appendChk ([0xAA, 0x01, 0, 22, 0, 7, 0, 0, 0, 1, 0, 0, 0, 0] ++ [0, 0, 0, 1, 0, 2])

theorem plainFrame_valid : DataFrameFor plainClient plainFrame :=
  ⟨by decide +kernel, by decide +kernel, by decide +kernel⟩

def mergedReads : List SocketRead :=
  [.received ⟨plainFrame ++ plainFrame, by decide +kernel, by decide +kernel⟩]

def framedReads : List SocketRead :=
  [.received ⟨plainFrame, by decide +kernel, by decide +kernel⟩, .again,
    .received ⟨plainFrame, by decide +kernel, by decide +kernel⟩]

theorem merged_frames_are_lost :
    plainClient.ArraysMatch ∧ DataFrameFor plainClient plainFrame ∧
      (pieces mergedReads).flatten = [plainFrame, plainFrame].flatten ∧
      (run callDataStream (plainClient, mergedReads) [⟨0, 0⟩]).map Prod.fst = some [-1] :=
  ⟨by decide +kernel, plainFrame_valid, by decide +kernel, by decide +kernel⟩

theorem framed_reads_accepted :
    ∃ rest, run callDataStream (plainClient, framedReads) [⟨0, 0⟩, ⟨0, 0⟩] =
      some ([0, 0], plainClient.receiveAll [⟨0, 0⟩, ⟨0, 0⟩] [plainFrame, plainFrame], rest) := by
  have valid : ∀ f ∈ [plainFrame, plainFrame], DataFrameFor plainClient f := by
    intro f hf
    obtain rfl : f = plainFrame := by simpa using hf
    exact plainFrame_valid
  have stays : StaysOpen framedReads := by simp [StaysOpen, framedReads]
  exact (stream_accepted_iff_cut_at_frames (by decide +kernel) valid stays rfl rfl).1 rfl

end
end Khorjin
