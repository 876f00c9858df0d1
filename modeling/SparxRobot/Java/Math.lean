import Mathlib.Algebra.Order.Floor.Ring
import Mathlib.Analysis.SpecialFunctions.Complex.Arg
import Mathlib.Analysis.SpecialFunctions.Trigonometric.Arctan

/-! What the robot uses of `java.lang.Math`, over an ordered field. Doubles are exact
here: rounding, infinities and NaN are left out. -/
namespace SparxRobot

/-- The transcendental functions, which a field may or may not have. -/
class JavaMath (R : Type*) where
  pi : R
  sin : R → R
  cos : R → R
  atan : R → R
  atan2 : R → R → R
  sqrt : R → R

noncomputable instance : JavaMath ℝ where
  pi := Real.pi
  sin := Real.sin
  cos := Real.cos
  atan := Real.arctan
  atan2 y x := Complex.arg ⟨x, y⟩
  sqrt := Real.sqrt

namespace Java

variable {R : Type*} [Field R] [LinearOrder R] [FloorRing R]

def toRadians [JavaMath R] (angdeg : R) : R := angdeg / 180.0 * JavaMath.pi

def toDegrees [JavaMath R] (angrad : R) : R := angrad * 180.0 / JavaMath.pi

/-- `Math.atan(y / x)`; over a zero the quotient is an infinity of the sign of `y`. -/
def atanOfQuotient [JavaMath R] (y x : R) : R :=
  if x = 0 then
    if 0 < y then JavaMath.pi / 2.0 else if y < 0 then -(JavaMath.pi / 2.0) else 0
  else JavaMath.atan (y / x)

def tan [JavaMath R] (a : R) : R := JavaMath.sin a / JavaMath.cos a

/-- The quotient rounded towards zero. -/
def trunc (x : R) : ℤ := if 0 ≤ x then ⌊x⌋ else ⌈x⌉

/-- The operator `%`: the result has the sign of the dividend. -/
def fmod (a b : R) : R := a - b * trunc (a / b)

/-- The nearest integer, halves to the even one. -/
def rint (x : R) : ℤ :=
  if x - ⌊x⌋ < 0.5 then ⌊x⌋
  else if x - ⌊x⌋ > 0.5 then ⌊x⌋ + 1
  else if ⌊x⌋ % 2 = 0 then ⌊x⌋ else ⌊x⌋ + 1

def IEEEremainder (a b : R) : R := a - b * rint (a / b)

end Java

end SparxRobot
