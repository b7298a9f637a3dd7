import Khorjin.ArrayWrites
import Khorjin.ConfigurationEncoding
import Khorjin.DataHistory
import Khorjin.ExactArithmetic

set_option autoImplicit false

/-!
# A frame altered in one float

Another float is written into an accepted data frame, and the checksum that goes with
it. The frame is still accepted, and the local floats that the later blocks begin with
are different.
-/
namespace Khorjin
open ByteMemory LoopRules ArrayWrites

theorem holds_writeFrom (m : ℕ → UInt8) (p : ℕ) (l : List UInt8) : Holds (writeFrom m p l) p l :=
  fun _ _ h => writeFrom_get m p h

/-- The message with the checksum of its first `n - 2` bytes behind them. -/
def withChk (m : ℕ → UInt8) (n : ℕ) : ℕ → UInt8 :=
  writeFrom m (n - 2) (encode16 (crcOf m (n - 2)))

def withFloat (m : ℕ → UInt8) (q : ℕ) (w : UInt32) (n : ℕ) : ℕ → UInt8 :=
  withChk (writeFrom m q (encode32 w)) n

theorem withChk_below (m : ℕ → UInt8) (n : ℕ) : SameBytes (withChk m n) m 0 (n - 2) :=
  fun _ _ hk => writeFrom_below m hk

theorem withChk_passes {sync : UInt8} {idcode : UInt16} {m m' : ℕ → UInt8} {n : ℕ} (hn : 8 ≤ n)
    (pass : FramePasses sync idcode m n) (same : SameBytes m' m 0 6) :
    FramePasses sync idcode (withChk m' n) n := by
  obtain ⟨_, first, second, size, id⟩ := pass
  have below := withChk_below m' n
  have head : SameBytes (withChk m' n) m 0 6 :=
    fun k h0 hk => (below k h0 (by omega)).trans (same k h0 hk)
  have crc : crcOf (withChk m' n) (n - 2) = crcOf m' (n - 2) :=
    crcOf_congr (fun k hk => below k (Nat.zero_le k) hk)
  have chk : word16 (withChk m' n) (n - 2) = crcOf m' (n - 2) :=
    word16_of_holds (holds_writeFrom _ _ _)
  refine ⟨crc.trans chk.symm, ?_, ?_, ?_, ?_⟩
  · rw [head 0 (le_refl 0) (by decide), first]
  · rw [head 1 (by decide) (by decide), second]
  · rw [head.word16 (by decide) (by decide), size]
  · rw [head.word16 (by decide) (by decide), id]

section
variable {m : ℕ → UInt8} {q n : ℕ} {w : UInt32}

theorem withFloat_passes {sync : UInt8} {idcode : UInt16} (pass : FramePasses sync idcode m n)
    (hq : 6 ≤ q) (hn : q + 4 ≤ n - 2) : FramePasses sync idcode (withFloat m q w n) n :=
  withChk_passes (by omega) pass (fun _ _ hk => writeFrom_below m (by omega))

theorem withFloat_behind : SameBytes (withFloat m q w n) m (q + 4) (n - 2) :=
  fun k hk hn => (withChk_below _ n k (Nat.zero_le k) hn).trans (writeFrom_behind m hk)

theorem withFloat_word32 (hn : q + 4 ≤ n - 2) : word32 (withFloat m q w n) q = w := by
  have below := withChk_below (writeFrom m q (encode32 w)) n
  have same : word32 (withFloat m q w n) q = word32 (writeFrom m q (encode32 w)) q :=
    word32_congr (fun k hk hk' => below k (Nat.zero_le k) (by omega))
  rw [same]
  exact word32_of_holds (holds_writeFrom _ _ _)

end

theorem lastSlot_2_bounds {l : Layout} {p q : ℕ} (h : l.lastSlot_2 p = some q) :
    p ≤ q ∧ q + 4 ≤ p + l.blockSize := by
  unfold Layout.lastSlot_2 at h
  split_ifs at h with float
  obtain rfl := Option.some.inj h
  obtain ⟨_, freq, analog, digital⟩ := l.offsets_le
  have width : l.phasorWidth = 8 := if_pos float.1
  have offset : l.freqOffset = 2 + 8 * l.phasors := by rw [Layout.freqOffset, width]
  have present : l.phasors ≠ 0 := float.2
  omega

theorem lastSlotBefore_bounds {ls : List Layout} {p i q : ℕ}
    (h : lastSlotBefore Layout.lastSlot_2 ls p i = some q) :
    p ≤ q ∧ q + 4 ≤ p + blockOffset ls i := by
  induction i with
  | zero => simp [lastSlotBefore] at h
  | succ i ih =>
    have mono := blockOffset_mono ls (Nat.le_add_right i 1)
    cases hl : ls[i]? with
    | none =>
      have before := ih (by simpa [lastSlotBefore, hl] using h)
      omega
    | some l =>
      have next := blockOffset_succ hl
      cases own : l.lastSlot_2 (p + blockOffset ls i) with
      | none =>
        have before := ih (by simpa [lastSlotBefore, hl, own] using h)
        omega
      | some r =>
        obtain rfl : r = q := by simpa [lastSlotBefore, hl, own] using h
        have inside := lastSlot_2_bounds own
        omega

section
variable {K : Type} [Field K] [Platform K K] [ExactArith K]

theorem exists_other_float (x : K) : ∃ w : UInt32, (FloatArith.ofBits w : K) ≠ x := by
  by_cases zero : x = 0
  · refine ⟨0x3F800000, ?_⟩
    rw [ExactArith.ofBits_one, zero]
    exact one_ne_zero
  · refine ⟨0, ?_⟩
    rw [ExactArith.ofBits_zero]
    exact Ne.symm zero

/-- For every accepted frame of the expected length there is another one that does not differ
    in the block of PMU `i`, or behind it, and meets that block with another float. -/
theorem staleFloat_varies {t : Temps K} {self self' : Client K} {b : Memory}
    (run : parseDataFrame t self b self.expectedSize = some (0, self')) {i : ℕ}
    (hi : i < self.numPmu.toNat) :
    ∃ t' b', parseDataFrame t' self b' self.expectedSize = some (0, self.storeData t' b'.byte) ∧
      SameBytes b'.byte b.byte (self.blockBase i) self.dataEnd ∧
      (self.staleFloats b'.byte t' i).tempFloat_2 ≠ (self.staleFloats b.byte t i).tempFloat_2 := by
  obtain ⟨n, size, _, pass, inside, read, rfl⟩ := parseDataFrame_accepted run
  have size : self.expectedSize = n := Int.ofNat.inj size
  have total := expectedSize_eq self
  have block : self.blockBase i = 14 + blockOffset self.layouts i := rfl
  have before : self.blockBase i ≤ self.dataEnd := blockBase_mono self (le_of_lt hi)
  have accepted : ∀ t' m', FramePasses 0x01 self.idcode m' n →
      parseDataFrame t' self (Memory.total m') self.expectedSize =
        some (0, self.storeData t' m') := by
    intro t' m' passes
    rw [size]
    exact parseDataFrame_of_pass (by omega) passes inside (Memory.total_defined _ _ _)
      (Memory.total_defined _ _ _)
  cases slot : lastSlotBefore Layout.lastSlot_2 self.layouts 14 i with
  | none =>
    -- no block in front has a float phasor, and the indeterminate value itself is met
    refine ⟨⟨t.tempFloat_1, t.tempFloat_2 + 1⟩, Memory.total b.byte, accepted _ _ pass,
      fun _ _ _ => rfl, ?_⟩
    simp [Client.staleFloats, slot, slotOr]
  | some q =>
    obtain ⟨first, last⟩ := lastSlotBefore_bounds slot
    obtain ⟨w, other⟩ := exists_other_float (float32 b.byte q : K)
    have passes : FramePasses 0x01 self.idcode (withFloat b.byte q w n) n :=
      withFloat_passes pass (by omega) (by omega)
    refine ⟨t, Memory.total (withFloat b.byte q w n), accepted _ _ passes,
      withFloat_behind.mono (by omega) (by omega), ?_⟩
    simp only [Client.staleFloats, slot, slotOr, Option.elim_some, Memory.total_byte, float32]
    rw [withFloat_word32 (by omega)]
    exact other

end
end Khorjin
