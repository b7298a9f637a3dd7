import Khorjin.ErrorDetection
import Khorjin.SentFrames

set_option autoImplicit false

/-!
# Damaged data frames

What a connection may make of a frame so that the client is sure to reject it: flipped
bits that the checksum detects, or a missing end. Each frame arrives as one read.
-/
namespace Khorjin
open ByteMemory LoopRules RunRules ShiftRegister Segmentation

/-- The bits that differ are odd in number, or they lie within 16 consecutive ones. -/
def Detectable (m m' : ℕ → UInt8) (n : ℕ) : Prop :=
  Odd (flippedBits m m' n).length ∨
    (∃ i < n, m i ≠ m' i) ∧ ∃ k, ∀ j ∈ flippedBits m m' n, k ≤ j ∧ j < k + 16

theorem Detectable.remainder {m m' : ℕ → UInt8} {n : ℕ} (h : Detectable m m' n) :
    feedBits crcPolynomial 0 (errorBits m m' n) ≠ 0 := by
  intro divides
  rcases h with odd | ⟨⟨i, hi, differ⟩, k, window⟩
  · have even := parity_of_no_remainder (by decide) divides
    rw [← errorBits_count, ← parity_eq_true_iff, even] at odd
    simp at odd
  · obtain ⟨j, hj⟩ := flippedBits_of_byte_ne hi differ
    have ones : ∀ j : ℕ, (errorBits m m' n)[j]? = some true → k ≤ j ∧ j < k + 16 :=
      fun j hj => window j ((errorBits_get_iff _ _ n j).1 hj)
    exact burst_has_remainder crcPolynomial_odd ones divides j ((errorBits_get_iff _ _ n j).2 hj)

def receiveBuffer (l : List UInt8) : ℕ → UInt8 := (Memory.zeroFilled BUFER_LENGTH l).byte

/-- What has become of the frame `f`. -/
inductive Damaged (f l : List UInt8) : Prop
  | flipped (length : l.length = f.length)
      (error : Detectable (receiveBuffer f) (receiveBuffer l) f.length)
  | cut (two_le : 2 ≤ l.length) (begins : l <+: f) (short : l.length < f.length)

section
variable {f l : List UInt8} {sync sync' : UInt8} {idcode idcode' : UInt16}

theorem Damaged.length_le (damaged : Damaged f l) : l.length ≤ f.length := by
  cases damaged with
  | flipped length _ => exact length.le
  | cut _ _ short => exact short.le

theorem Damaged.two_le (damaged : Damaged f l) (long : 2 ≤ f.length) : 2 ≤ l.length := by
  cases damaged with
  | flipped length _ => omega
  | cut two_le _ _ => exact two_le

/-- Neither parser accepts what has become of a frame that one of them would accept. -/
theorem Damaged.rejected (damaged : Damaged f l) (long : 2 ≤ f.length)
    (passes : FramePasses sync idcode (receiveBuffer f) f.length) :
    ¬ FramePasses sync' idcode' (receiveBuffer l) l.length := by
  rintro ⟨chk, _, _, announced, _⟩
  cases damaged with
  | flipped length error =>
    rw [length] at chk
    exact error.remainder (error_remainder ((remainder_eq_zero_iff _ _ long).2 passes.1)
      ((remainder_eq_zero_iff _ _ long).2 chk))
  | cut two_le begins short =>
    have whole : SizeMatches f := ⟨by omega, passes.2.2.2.1⟩
    have announces : SizeMatches l := ⟨by omega, announced⟩
    have same := sizeMatches_delimits whole l [] announces (by simpa using begins)
    rw [same] at short
    exact Nat.lt_irrefl _ short

end

theorem sixteen_le_length (f : SentData) : 16 ≤ f.encode.length := by
  rw [SentData.encode_length]
  exact Nat.le_add_right 16 _

theorem sent_buffer_passes {f : SentData} (room : f.size ≤ BUFER_LENGTH) :
    FramePasses 0x01 f.idcode (receiveBuffer f.encode) f.encode.length := by
  have size := f.encode_length
  rw [size]
  apply sent_passes
  · apply holds_zeroFilled
    rw [size]
    exact room
  · unfold BUFER_LENGTH at room
    omega

structure Arrival (F : Type) where
  sent : Transmitted F
  bytes : List UInt8
  arrives : bytes = sent.frame.encode ∨ Damaged sent.frame.encode bytes

namespace Arrival
variable {F : Type}

def intact (d : Arrival F) : Bool := d.bytes == d.sent.frame.encode

theorem eq_of_intact {d : Arrival F} (h : d.intact = true) : d.bytes = d.sent.frame.encode :=
  eq_of_beq h

theorem damaged_of_not_intact {d : Arrival F} (h : d.intact = false) :
    Damaged d.sent.frame.encode d.bytes :=
  d.arrives.resolve_left (fun same => by simp [intact, same] at h)

end Arrival

end Khorjin
