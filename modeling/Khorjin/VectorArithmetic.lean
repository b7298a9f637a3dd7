import Mathlib.Analysis.SpecialFunctions.Complex.Arg
import Mathlib.Analysis.SpecialFunctions.Pow.Real
import Khorjin.ExactArithmetic

set_option autoImplicit false

/-!
# Magnitudes and angles without rounding

Float arithmetic over the reals, with the square root, the power and the arc tangent of
two arguments that the decoders call.
-/
namespace Khorjin
open ByteMemory

class ExactRealArith [Platform ℝ ℝ] : Prop extends ExactArith ℝ where
  sqrt : ∀ x : ℝ, FloatArith.sqrt ℝ x = √x
  pow : ∀ x y : ℝ, FloatArith.pow ℝ x y = x ^ y
  atan2 : ∀ y x : ℝ, FloatArith.atan2 ℝ y x = Complex.arg ⟨x, y⟩
  M_PI : (FloatArith.M_PI ℝ : ℝ) = 3.14159265358979323846

/-- The angle of a vector, converted to degrees with the constant of the source. -/
noncomputable def vectorAngle (x y : ℝ) : ℝ :=
  Complex.arg ⟨x, y⟩ * 180 / 3.14159265358979323846

section
variable [Platform ℝ ℝ] [ExactRealArith]

theorem magnitudeOf_exact (x y : ℝ) : magnitudeOf x y = √(x ^ 2 + y ^ 2) := by
  have two : (FloatArith.const ℝ 2 : ℝ) = (2 : ℕ) := by
    rw [ExactArith.const]
    norm_num
  have square : ∀ z : ℝ,
      FloatArith.pow ℝ (FloatArith.widen z) (FloatArith.const ℝ 2) = z ^ 2 := by
    intro z
    rw [ExactRealArith.pow, ExactArith.widen, two, Real.rpow_natCast]
  simp only [magnitudeOf, square, ExactArith.addD, ExactRealArith.sqrt]

theorem angleOf_exact (x y : ℝ) : angleOf x y = vectorAngle x y := by
  rw [angleOf, ExactArith.narrow, ExactArith.divD, ExactArith.mulD, ExactRealArith.atan2,
    ExactArith.widen, ExactArith.widen, ExactArith.const, ExactRealArith.M_PI, vectorAngle]
  norm_num

end

theorem vectorAngle_eq_iff (x y u v : ℝ) :
    vectorAngle u v = vectorAngle x y ↔ Complex.arg ⟨u, v⟩ = Complex.arg ⟨x, y⟩ := by
  unfold vectorAngle
  rw [div_left_inj' (by norm_num), mul_left_inj' (by norm_num)]

/-- A vector in the first quadrant has the angle of no vector outside it. -/
theorem quadrant_of_vectorAngle_eq {x y u v : ℝ} (hu : 0 ≤ u) (hv : 0 ≤ v)
    (h : vectorAngle u v = vectorAngle x y) : 0 ≤ x ∧ 0 ≤ y := by
  have same := (vectorAngle_eq_iff x y u v).1 h
  constructor
  · have right : |Complex.arg ⟨u, v⟩| ≤ Real.pi / 2 := Complex.abs_arg_le_pi_div_two_iff.2 hu
    rw [same] at right
    exact Complex.abs_arg_le_pi_div_two_iff.1 right
  · have upper : 0 ≤ Complex.arg ⟨u, v⟩ := Complex.arg_nonneg_iff.2 hv
    rw [same] at upper
    exact Complex.arg_nonneg_iff.1 upper

theorem vector_of_polar {r a : ℝ} (hr : 0 < r) (ha : a ∈ Set.Ioc (-Real.pi) Real.pi) :
    √((r * Real.cos a) ^ 2 + (r * Real.sin a) ^ 2) = r ∧
      vectorAngle (r * Real.cos a) (r * Real.sin a) = a * 180 / 3.14159265358979323846 := by
  constructor
  · have square : (r * Real.cos a) ^ 2 + (r * Real.sin a) ^ 2 = r ^ 2 := by
      rw [mul_pow, mul_pow, ← mul_add, Real.cos_sq_add_sin_sq, mul_one]
    rw [square, Real.sqrt_sq hr.le]
  · have vector : (⟨r * Real.cos a, r * Real.sin a⟩ : ℂ) =
        r * (Complex.cos a + Complex.sin a * Complex.I) := by
      apply Complex.ext
      · simp [Complex.cos_ofReal_re]
      · simp [Complex.sin_ofReal_re]
    rw [vectorAngle, vector, Complex.arg_mul_cos_add_sin_mul_I hr ha]

theorem degrees_eq_iff (a : ℝ) : a = a * 180 / 3.14159265358979323846 ↔ a = 0 := by
  constructor
  · intro h
    field_simp at h
    linarith
  · rintro rfl
    simp

namespace ExactReal

/-- Exact real arithmetic on the values that `ofBits` gives to the float words. -/
@[reducible] noncomputable def platform (ofBits : UInt32 → ℝ) : Platform ℝ ℝ where
  ofBits := ofBits
  ofInt z := z
  narrow := id
  widen := id
  add x y := x + y
  mul x y := x * y
  div x y := x / y
  const q := q
  M_PI := 3.14159265358979323846
  addD x y := x + y
  mulD x y := x * y
  divD x y := x / y
  sqrt x := √x
  pow x y := x ^ y
  atan2 y x := Complex.arg ⟨x, y⟩
  localtime timeValue := ⟨70, 0, 1, 0, 0, timeValue.toNat⟩

theorem exact {ofBits : UInt32 → ℝ} (zero : ofBits 0 = 0) (one : ofBits 0x3F800000 = 1) :
    @ExactRealArith (platform ofBits) := by
  let _ := platform ofBits
  exact
    { ofBits_zero := zero
      ofBits_one := one
      ofInt := fun _ => rfl
      narrow := fun _ => rfl
      widen := fun _ => rfl
      add := fun _ _ => rfl
      mul := fun _ _ => rfl
      div := fun _ _ => rfl
      const := fun _ => rfl
      addD := fun _ _ => rfl
      mulD := fun _ _ => rfl
      divD := fun _ _ => rfl
      sqrt := fun _ => rfl
      pow := fun _ _ => rfl
      atan2 := fun _ _ => rfl
      M_PI := rfl }

@[reducible] noncomputable def binary32 : Platform ℝ ℝ :=
  platform (fun w => (ExactRational.binary32 w : ℝ))

end ExactReal

section
attribute [local instance] ExactReal.binary32

instance : ExactRealArith := by
  have zero : ExactRational.binary32 0 = 0 := by decide +kernel
  have one : ExactRational.binary32 0x3F800000 = 1 := by decide +kernel
  exact ExactReal.exact (by rw [zero, Rat.cast_zero]) (by rw [one, Rat.cast_one])

end
end Khorjin
