import Mathlib.Data.Rat.Cast.CharZero
import Mathlib.Tactic.NormNum
import Mathlib.Tactic.Ring
import Khorjin.DataSlots

set_option autoImplicit false

/-!
# Arithmetic without rounding

What the float operations are when `float` and `double` are read as one field, and
what they make of a word that stands for a two's-complement integer.
-/
namespace Khorjin
open ByteMemory

class ExactArith (K : Type) [Field K] [Platform K K] : Prop where
  ofBits_zero : (FloatArith.ofBits 0 : K) = 0
  ofBits_one : (FloatArith.ofBits 0x3F800000 : K) = 1
  ofInt : ∀ z : ℤ, (FloatArith.ofInt z : K) = z
  narrow : ∀ x : K, (FloatArith.narrow x : K) = x
  widen : ∀ x : K, (FloatArith.widen x : K) = x
  add : ∀ x y : K, FloatArith.add x y = x + y
  mul : ∀ x y : K, FloatArith.mul x y = x * y
  div : ∀ x y : K, FloatArith.div x y = x / y
  const : ∀ q : ℚ, (FloatArith.const K q : K) = q
  addD : ∀ x y : K, FloatArith.addD K x y = x + y
  mulD : ∀ x y : K, FloatArith.mulD K x y = x * y
  divD : ∀ x y : K, FloatArith.divD K x y = x / y

/-- The word as a two's-complement integer. -/
def signed (w : UInt16) : ℤ := w.toInt16.toInt

theorem signed_eq (w : UInt16) :
    signed w = if w.toNat < 2 ^ 15 then (w.toNat : ℤ) else w.toNat - 2 ^ 16 := by
  have value : signed w = w.toBitVec.toInt := rfl
  have nat : w.toBitVec.toNat = w.toNat := rfl
  rw [value, BitVec.toInt_eq_toNat_cond, nat]
  by_cases h : w.toNat < 2 ^ 15
  · rw [if_pos h, if_pos (by omega)]
  · rw [if_neg h, if_neg (by omega)]
    rfl

theorem signed_eq_iff (w : UInt16) : signed w = w.toNat ↔ w.toNat < 2 ^ 15 := by
  rw [signed_eq]
  split_ifs <;> omega

theorem signed_nonneg_iff (w : UInt16) : 0 ≤ signed w ↔ w.toNat < 2 ^ 15 := by
  have lt := w.toNat_lt
  rw [signed_eq]
  split_ifs <;> omega

section
variable {K : Type} [Platform K K]

theorem rocofAt_integer {l : Layout} (integer : l.freqIsFloatingPoint = false) (m : ℕ → UInt8)
    (old : K) (p : ℕ) : rocofAt l m old p = old := by
  rw [rocofAt, integer, if_neg Bool.false_ne_true]

variable [Field K] [ExactArith K]

omit [Platform K K] [ExactArith K] in
theorem signed_cast_eq_iff [CharZero K] (w : UInt16) :
    (signed w : K) = w.toNat ↔ w.toNat < 2 ^ 15 := by
  rw [← signed_eq_iff]
  norm_cast

theorem floatOfWord_exact (w : UInt16) : (floatOfWord w : K) = w.toNat := by
  rw [floatOfWord, ExactArith.ofInt]
  exact Int.cast_natCast _

/-- The frequency of an integer format, taken from the word behind that of the deviation. -/
theorem frequencyAt_integer [CharZero K] {l : Layout} (integer : l.freqIsFloatingPoint = false)
    (m : ℕ → UInt8) (p : ℕ) : (frequencyAt l m p : K) = ((word16 m (p + 2)).toNat : K) / 100 := by
  rw [frequencyAt, integer, if_neg Bool.false_ne_true, ExactArith.narrow, ExactArith.mulD,
    ExactArith.widen, ExactArith.const, floatOfWord_exact]
  push_cast
  ring

theorem analogAt_integer {l : Layout} (integer : l.analogIsFloatingPoint = false)
    (m : ℕ → UInt8) (p : ℕ) (an : Analog K) :
    (analogAt l m p an).value = ((word16 m p).toNat : K) * an.conversionFactor := by
  rw [analogAt, integer, if_neg Bool.false_ne_true]
  change FloatArith.mul (floatOfWord (word16 m p)) an.conversionFactor = _
  rw [ExactArith.mul, floatOfWord_exact]

end

section
attribute [local instance] ExactRational.platform

instance : ExactArith ℚ where
  ofBits_zero := by decide +kernel
  ofBits_one := by decide +kernel
  ofInt _ := rfl
  narrow _ := rfl
  widen _ := rfl
  add _ _ := rfl
  mul _ _ := rfl
  div _ _ := rfl
  const q := (Rat.cast_id q).symm
  addD _ _ := rfl
  mulD _ _ := rfl
  divD _ _ := rfl

end
end Khorjin
