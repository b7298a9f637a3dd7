import Khorjin.ReceiveBounds
import Khorjin.ReceiverLoop

set_option autoImplicit false

/-!
# How long the receiver loop goes on

Whatever bytes come in, the loop handles every read of two bytes or more. It does not look
for the end of the connection, and the first shorter result of a read is undefined.
-/
namespace Khorjin
open ByteMemory LoopRules RunRules
variable {F D : Type} [Platform F D]

namespace SocketRead

def size : SocketRead → ℤ
  | .again => 0
  | .failed => -1
  | .received chunk => chunk.data.length

def bytes : SocketRead → List UInt8
  | .received chunk => chunk.data
  | _ => []

end SocketRead

/-- The reads that end the loops around `Socket_read`. -/
def outcomes (reads : List SocketRead) : List SocketRead := reads.filter (fun r => r.size != 0)

theorem readLoop_outcome {reads outcomes' : List SocketRead} {r : SocketRead}
    (next : outcomes reads = r :: outcomes') :
    ∃ rest, readLoop reads = some (r.size, r.bytes, rest) ∧ outcomes rest = outcomes' := by
  induction reads with
  | nil => simp [outcomes] at next
  | cons first reads ih =>
    cases first with
    | again => exact ih next
    | failed =>
      obtain ⟨rfl, rfl⟩ := List.cons.inj next
      exact ⟨reads, rfl, rfl⟩
    | received chunk =>
      have nonzero : (SocketRead.received chunk).size ≠ 0 := by
        have := chunk.nonempty
        simp only [SocketRead.size]
        omega
      rw [outcomes, List.filter_cons_of_pos (by simpa using nonzero)] at next
      obtain ⟨rfl, rfl⟩ := List.cons.inj next
      exact ⟨reads, rfl, rfl⟩

/-- The arrays have room for the counts, and a data frame for them has room in the buffer. -/
structure Client.Sturdy (client : Client F) : Prop where
  arrays : client.ArraysMatch
  room : client.dataEnd ≤ BUFER_LENGTH

theorem fresh_sturdy (pmuIdCode : ℤ) (timeoutInMs : UInt32) (bufferSnd bufferRcv : List UInt8) :
    (Client.fresh pmuIdCode timeoutInMs bufferSnd bufferRcv : Client F).Sturdy := by
  refine ⟨fresh_arraysMatch _ _ _ _, ?_⟩
  change 14 ≤ BUFER_LENGTH
  decide

section
variable {self : Client F} {reads rest : List SocketRead} {r : SocketRead} {t : Temps F}

theorem Client.Sturdy.storeData (sturdy : self.Sturdy) (t : Temps F) (m : ℕ → UInt8) :
    (self.storeData t m).Sturdy := by
  refine ⟨storeData_arraysMatch sturdy.arrays t m, ?_⟩
  rw [Client.dataEnd, Client.blockBase, layouts_storeData]
  exact sturdy.room

theorem receiverPass_short (next : readLoop reads = some (r.size, r.bytes, rest))
    (short : r.size < 2) : receiverPass (self, reads) t = none := by
  have unhandled : getDataStream t self reads = none := by
    by_contra handled
    obtain ⟨n, data, rest', loop, long⟩ :=
      getDataStream_two_le (Option.isSome_iff_ne_none.2 handled)
    rw [next] at loop
    cases loop
    omega
  simp only [receiverPass, unhandled, Option.bind_eq_bind, Option.bind_none]

theorem receiverPass_long (sturdy : self.Sturdy)
    (next : readLoop reads = some (r.size, r.bytes, rest)) (long : 2 ≤ r.size) :
    ∃ report self', receiverPass (self, reads) t = some (report, self', rest) ∧ self'.Sturdy := by
  cases r with
  | again => exact absurd long (by decide)
  | failed => exact absurd long (by decide)
  | received chunk =>
    have two_le : 2 ≤ chunk.data.length := by
      simp only [SocketRead.size] at long
      omega
    let received := Received.ofBytes chunk.data two_le chunk.fits
    have filled : (self.fillRcv chunk.data).Sturdy := ⟨sturdy.arrays, sturdy.room⟩
    have called : ∀ v self', handle (self.fillRcv chunk.data) (.dataFrame received t) =
        some (v, self') → getDataStream t self reads = some (v, self', rest) := by
      intro v self' step
      have parsed : parseDataFrame t (self.fillRcv chunk.data)
          (Memory.zeroFilled BUFER_LENGTH chunk.data) chunk.data.length = some (v, self') := step
      simp only [getDataStream, next, SocketRead.size, SocketRead.bytes, parsed,
        Option.bind_eq_bind, Option.bind_some]
    by_cases passes : received.Passes 0x01 self.idcode
    · have stored := filled.storeData t received.buffer.byte
      have call := called 0 _ ((handle_iff _ _ _).2 (.inl ⟨passes,
        ⟨filled.arrays.arraysInside, received.defined_le filled.room⟩, rfl⟩))
      obtain ⟨lines, printed⟩ : ∃ lines, printDataStream ((self.fillRcv chunk.data).storeData t
          received.buffer.byte) = some lines :=
        ⟨_, (printDataStream_iff _ _).2 ⟨_, rfl, stored.arrays.arraysInside, rfl⟩⟩
      refine ⟨.sample lines, (self.fillRcv chunk.data).storeData t received.buffer.byte, ?_, stored⟩
      simp only [receiverPass, call, Event.store, printed, if_true, Option.bind_eq_bind,
        Option.bind_some]
    · have call := called (-1) _ ((handle_iff _ _ _).2 (.inr ⟨passes, rfl⟩))
      exact ⟨.frameMissed, _, by simp [receiverPass, call], filled⟩

theorem loop_defined_iff {passes : List (Temps F)} (sturdy : self.Sturdy)
    (ends : passes.length ≤ (outcomes reads).length) :
    (run receiverPass (self, reads) passes).isSome ↔
      ∀ r ∈ (outcomes reads).take passes.length, 2 ≤ r.size := by
  induction passes generalizing self reads with
  | nil => simp
  | cons t passes ih =>
    cases hr : outcomes reads with
    | nil => simp [hr] at ends
    | cons r later =>
      obtain ⟨rest, next, tail⟩ := readLoop_outcome hr
      rw [hr] at ends
      rw [List.length_cons, List.take_succ_cons, List.forall_mem_cons]
      by_cases long : 2 ≤ r.size
      · obtain ⟨report, self', pass, sturdy'⟩ := receiverPass_long (t := t) sturdy next long
        have enough : passes.length ≤ (outcomes rest).length := by
          rw [tail]
          simpa using ends
        have more := ih sturdy' enough
        rw [tail] at more
        rw [← more]
        cases later : run receiverPass (self', rest) passes <;> simp [run, pass, long, later]
      · have unhandled : receiverPass (self, reads) t = none :=
          receiverPass_short next (by omega)
        simp [run, unhandled, long]

end

/-- The loop goes through all its passes if and only if each of the reads that end their
    waiting delivers two bytes or more. -/
theorem receiver_loop_survives_iff {self : Client F} (sturdy : self.Sturdy)
    {passes : List (Temps F)} {reads : List SocketRead}
    (ends : passes.length ≤ (outcomes reads).length) (started stopped : UInt64) :
    (c37_118ReceiverLoop self started stopped passes reads).isSome ↔
      ∀ r ∈ (outcomes reads).take passes.length, 2 ≤ r.size := by
  have begins : (startTransmission self started).2.Sturdy := ⟨sturdy.arrays, sturdy.room⟩
  rw [← loop_defined_iff begins ends]
  simp only [c37_118ReceiverLoop, Option.bind_eq_bind]
  cases run receiverPass ((startTransmission self started).2, reads) passes <;> rfl

section
attribute [local instance] ExactRational.platform

theorem closed_connection_ends_the_loop :
    (c37_118ReceiverLoop (Client.fresh 7 0 [] [] : Client ℚ) 1 2 [⟨0, 0⟩]
      [.again, .received ⟨[1, 2, 3], by decide, by decide⟩]).isSome ∧
    ¬ (c37_118ReceiverLoop (Client.fresh 7 0 [] [] : Client ℚ) 1 2 [⟨0, 0⟩, ⟨0, 0⟩]
      [.again, .received ⟨[1, 2, 3], by decide, by decide⟩, .failed]).isSome := by
  rw [receiver_loop_survives_iff (fresh_sturdy 7 0 [] []) (by decide),
    receiver_loop_survives_iff (fresh_sturdy 7 0 [] []) (by decide)]
  decide

end
end Khorjin
