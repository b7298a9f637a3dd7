import Mathlib.Data.Rat.Defs
import Mathlib.Algebra.Order.Field.Rat

set_option autoImplicit false

namespace Khorjin

/-- The floating-point operations the decoders use, over the type `F` of `float`
    and the type `D` of `double`. -/
class FloatArith (F : Type) (D : outParam Type) where
  ofBits : UInt32 → F
  ofInt : ℤ → F
  narrow : D → F
  widen : F → D
  add : F → F → F
  mul : F → F → F
  div : F → F → F
  const : ℚ → D
  M_PI : D
  addD : D → D → D
  mulD : D → D → D
  divD : D → D → D
  sqrt : D → D
  pow : D → D → D
  atan2 : D → D → D

structure Tm where
  tm_year : ℤ
  tm_mon : ℤ
  tm_mday : ℤ
  tm_hour : ℤ
  tm_min : ℤ
  tm_sec : ℤ
deriving DecidableEq

/-- What the client relies on beyond its own code: the float arithmetic and the
    local calendar of the C library. -/
class Platform (F : Type) (D : outParam Type) extends FloatArith F D where
  localtime : UInt32 → Tm

namespace ExactRational

def binary32 (w : UInt32) : ℚ :=
  let sign : ℚ := if w >>> 31 = 0 then 1 else -1
  let exponent := ((w >>> 23) &&& 0xFF).toNat
  let fraction := (w &&& 0x7FFFFF).toNat
  if exponent = 0 then sign * fraction / 2 ^ 149
  else if exponent ≤ 150 then sign * (fraction + 2 ^ 23) / 2 ^ (150 - exponent)
  else sign * (fraction + 2 ^ 23) * 2 ^ (exponent - 150)

/-- Float arithmetic read as exact rationals, to evaluate the model on concrete
    frames. A square root is exact on squares and a power on natural exponents;
    `atan2` knows the positive real axis only, and no evaluated frame needs more. -/
@[reducible] def platform : Platform ℚ ℚ where
  ofBits := binary32
  ofInt z := z
  narrow := id
  widen := id
  add x y := x + y
  mul x y := x * y
  div x y := x / y
  const := id
  M_PI := 314159265358979323846 / 100000000000000000000
  addD x y := x + y
  mulD x y := x * y
  divD x y := x / y
  sqrt q := (Nat.sqrt q.num.toNat : ℚ) / Nat.sqrt q.den
  pow x y := x ^ y.num.toNat
  atan2 _ _ := 0
  localtime timeValue := ⟨70, 0, 1, 0, 0, timeValue.toNat⟩

end ExactRational
end Khorjin
