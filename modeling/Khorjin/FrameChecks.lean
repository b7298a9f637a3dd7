import Khorjin.FrameChecksum

set_option autoImplicit false

namespace Khorjin
open ByteMemory LoopRules
variable {F : Type}

structure FrameHeader where
  frameSizeRcdv : UInt16
  idCodeRcdv : UInt16
  bufPos : ℕ

/-- The five checks that both frame parsers begin with, which differ in the second
    byte of the SYNC word: `some none` where the source returns -1. -/
def checkFrame (sync : UInt8) (self : Client F) (buffer : Memory) (bufferSize : ℤ) :
    Option (Option FrameHeader) := do
  if (← crcCheck buffer bufferSize) = false then some none
  else if (← buffer.read 0) ≠ 0xAA then some none
  else if (← buffer.read 1) ≠ sync then some none
  else
    let (frameSizeRcdv, bufPos) ← twoByteToUint16 buffer 2
    if frameSizeRcdv.toNat ≠ bufferSize then some none
    else
      let (idCodeRcdv, bufPos) ← twoByteToUint16 buffer bufPos
      if idCodeRcdv ≠ self.idcode then some none
      else some (some ⟨frameSizeRcdv, idCodeRcdv, bufPos⟩)

def FramePasses (sync : UInt8) (idcode : UInt16) (m : ℕ → UInt8) (n : ℕ) : Prop :=
  crcOf m (n - 2) = word16 m (n - 2) ∧ m 0 = 0xAA ∧ m 1 = sync ∧ (word16 m 2).toNat = n ∧
    word16 m 4 = idcode

instance (sync : UInt8) (idcode : UInt16) (m : ℕ → UInt8) (n : ℕ) :
    Decidable (FramePasses sync idcode m n) :=
  inferInstanceAs (Decidable (_ ∧ _ ∧ _ ∧ _ ∧ _))

theorem FramePasses.size_lt {sync : UInt8} {idcode : UInt16} {m : ℕ → UInt8} {n : ℕ}
    (h : FramePasses sync idcode m n) : n < 2 ^ 16 := by
  obtain ⟨_, _, _, hsize, _⟩ := h
  rw [← hsize]
  exact (word16 m 2).toNat_lt

theorem reject_unless {α : Type} (P : Prop) [Decidable P] (x : Option (Option α)) (r : α) :
    (if P then some none else x) = some (some r) ↔ ¬ P ∧ x = some (some r) := by
  by_cases h : P <;> simp [h]

theorem checkFrame_pass_iff (sync : UInt8) (self : Client F) (b : Memory) (n : ℕ) (h2 : 2 ≤ n)
    (h : n < 2 ^ 31) (r : FrameHeader) : checkFrame sync self b n = some (some r) ↔
      (b.Defined 0 n ∧ b.Defined 0 6 ∧ FramePasses sync self.idcode b.byte n) ∧
        ⟨word16 b.byte 2, word16 b.byte 4, 6⟩ = r := by
  have range : b.Defined 0 6 ↔
      b.Defined 0 (0 + 1) ∧ b.Defined 1 (1 + 1) ∧ b.Defined 2 (2 + 2) ∧ b.Defined 4 (4 + 2) := by
    rw [Memory.defined_append (p := 2) (by omega) (by omega),
      Memory.defined_append (p := 1) (by omega) (by omega),
      Memory.defined_append (by omega) (by omega)]
  simp only [checkFrame, Option.bind_eq_bind, bind_iff (crcCheck_iff b n h2 h), reject_unless,
    Memory.read_bind, twoByteToUint16_bind, range, FramePasses, decide_eq_false_iff_not, not_not,
    Option.some.injEq, Nat.cast_inj, ne_eq]
  tauto

theorem checkFrame_frameSize {sync : UInt8} {self : Client F} {b : Memory} {bufferSize : ℤ}
    {r : FrameHeader} (run : checkFrame sync self b bufferSize = some (some r)) :
    ((word16 b.byte 2).toNat : ℤ) = bufferSize := by
  simp only [checkFrame, Option.bind_eq_bind, Option.bind_eq_some_iff, reject_unless,
    twoByteToUint16_iff] at run
  obtain ⟨_, _, _, _, _, _, _, _, _, word, ⟨_, rfl⟩, hsize, _⟩ := run
  exact not_not.1 hsize

theorem checkFrame_two_le {sync : UInt8} {self : Client F} {b : Memory} {bufferSize : ℤ}
    {r : Option FrameHeader} (run : checkFrame sync self b bufferSize = some r) :
    2 ≤ bufferSize := by
  simp only [checkFrame, Option.bind_eq_bind, Option.bind_eq_some_iff] at run
  obtain ⟨_, crc, _⟩ := run
  exact crcCheck_two_le crc

theorem checkFrame_size {sync : UInt8} {self : Client F} {b : Memory} {bufferSize : ℤ}
    {r : FrameHeader} (run : checkFrame sync self b bufferSize = some (some r)) :
    ∃ n : ℕ, 2 ≤ n ∧ n < 2 ^ 16 ∧ bufferSize = n := by
  have size := checkFrame_frameSize run
  have two := checkFrame_two_le run
  exact ⟨_, by omega, (word16 b.byte 2).toNat_lt, size.symm⟩

theorem checkFrame_reject {sync : UInt8} {self : Client F} {b : Memory} {n : ℕ} (h2 : 2 ≤ n)
    (h : n < 2 ^ 31) (run : checkFrame sync self b n = some none) :
    ¬ FramePasses sync self.idcode b.byte n := by
  rintro ⟨hcrc, h0, h1, hsize, hid⟩
  simp only [checkFrame, Option.bind_eq_bind, bind_iff (crcCheck_iff b n h2 h), hcrc, decide_true,
    Bool.true_eq_false, if_false] at run
  simp only [Memory.read_bind, h0, h1, ne_eq, not_true, if_false, twoByteToUint16_bind, hsize,
    hid] at run
  simp at run

/-- What a parser does behind the checks: `D` and `v` describe the rest of it for a header
    that has passed them. -/
theorem afterChecks_iff {α : Type} {sync : UInt8} {self : Client F} {b : Memory} {n : ℕ}
    (h2 : 2 ≤ n) (h : n < 2 ^ 31) {rest : FrameHeader → Option α} {D : Prop} {v rejected : α}
    (behind : b.Defined 0 n → FramePasses sync self.idcode b.byte n →
      ∀ r, rest ⟨word16 b.byte 2, word16 b.byte 4, 6⟩ = some r ↔ D ∧ v = r) (r : α) :
    (do
      match ← checkFrame sync self b n with
      | none => some rejected
      | some header => rest header) = some r ↔
      ((b.Defined 0 n ∧ b.Defined 0 6 ∧ FramePasses sync self.idcode b.byte n ∧ D) ∧ v = r) ∨
        (checkFrame sync self b n = some none ∧ rejected = r) := by
  have pass := checkFrame_pass_iff sync self b n h2 h
  cases hcheck : checkFrame sync self b n with
  | none =>
    have never : ¬ (b.Defined 0 n ∧ b.Defined 0 6 ∧ FramePasses sync self.idcode b.byte n) := by
      intro hpass
      have := (pass _).2 ⟨hpass, rfl⟩
      simp [hcheck] at this
    simp
    tauto
  | some outcome =>
    cases outcome with
    | none =>
      have never := checkFrame_reject h2 h hcheck
      simp [never]
    | some header =>
      obtain ⟨⟨hn, h6, hpass⟩, rfl⟩ := (pass header).1 hcheck
      simp only [Option.bind_eq_bind, Option.bind_some, behind hn hpass, hn, h6, hpass, true_and,
        Option.some.injEq, reduceCtorEq, false_and, or_false]

theorem afterChecks_size {α : Type} {sync : UInt8} {self : Client F} {b : Memory}
    {bufferSize : ℤ} {rest : FrameHeader → Option α} {rejected r : α} (accepted : rejected ≠ r)
    (run : (do
      match ← checkFrame sync self b bufferSize with
      | none => some rejected
      | some header => rest header) = some r) :
    (∃ header, checkFrame sync self b bufferSize = some (some header)) ∧
      ∃ n : ℕ, 2 ≤ n ∧ n < 2 ^ 16 ∧ bufferSize = n := by
  simp only [Option.bind_eq_bind, Option.bind_eq_some_iff] at run
  obtain ⟨outcome, hcheck, hrest⟩ := run
  cases outcome with
  | none => exact absurd (Option.some.inj hrest) accepted
  | some header => exact ⟨⟨header, hcheck⟩, checkFrame_size hcheck⟩

theorem checkFrame_eq {sync : UInt8} {self : Client F} {b : Memory} {n : ℕ} (h2 : 2 ≤ n)
    (h : n < 2 ^ 31) (hn : b.Defined 0 n) (h6 : b.Defined 0 6) :
    checkFrame sync self b n = some (if FramePasses sync self.idcode b.byte n then
      some ⟨word16 b.byte 2, word16 b.byte 4, 6⟩ else none) := by
  by_cases pass : FramePasses sync self.idcode b.byte n
  · rw [if_pos pass]
    exact (checkFrame_pass_iff sync self b n h2 h _).2 ⟨⟨hn, h6, pass⟩, rfl⟩
  · rw [if_neg pass]
    have crc := (crcCheck_iff b n h2 h _).2 ⟨hn, rfl⟩
    have b0 := (Memory.read_iff b 0 _).2 ⟨h6.mono (by omega) (by omega), rfl⟩
    have b1 := (Memory.read_iff b 1 _).2 ⟨h6.mono (by omega) (by omega), rfl⟩
    have w2 := (twoByteToUint16_iff b 2 _).2 ⟨h6.mono (by omega) (by omega), rfl⟩
    have w4 := (twoByteToUint16_iff b 4 _).2 ⟨h6.mono (by omega) (by omega), rfl⟩
    simp only [checkFrame, crc, b0, b1, w2, w4, Option.bind_eq_bind, Option.bind_some]
    by_contra hne
    apply pass
    refine ⟨?_, ?_, ?_, ?_, ?_⟩ <;> by_contra hx <;> apply hne <;> simp [hx]

theorem checkFrame_reject_iff {sync : UInt8} {self : Client F} {b : Memory} {n : ℕ} (h2 : 2 ≤ n)
    (h : n < 2 ^ 31) (hn : b.Defined 0 n) (h6 : b.Defined 0 6) :
    checkFrame sync self b n = some none ↔ ¬ FramePasses sync self.idcode b.byte n := by
  rw [checkFrame_eq h2 h hn h6]
  by_cases pass : FramePasses sync self.idcode b.byte n
  · simp [pass]
  · simp [pass]

end Khorjin
