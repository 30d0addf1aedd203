import Mathlib.Analysis.SpecialFunctions.Complex.Arg

namespace RoboBand.Virtual

/-- The functions of the C library that the leg computes with. -/
class FloatMath (R : Type*) where
  sqrtf : R → R
  sinf : R → R
  cosf : R → R
  acosf : R → R
  atan2f : R → R → R

open FloatMath

/-- What these functions approximate; `atan2f` takes `y` before `x`. -/
noncomputable instance : FloatMath ℝ where
  sqrtf := Real.sqrt
  sinf := Real.sin
  cosf := Real.cos
  acosf := Real.arccos
  atan2f := fun y x => Complex.arg ⟨x, y⟩

theorem atan2f_zero_of_neg {x : ℝ} (negative : x < 0) :
    atan2f 0 x = Real.pi :=
  Complex.arg_ofReal_of_neg negative

theorem atan2f_polar {radius angle : ℝ} (positive : 0 < radius)
    (range : angle ∈ Set.Ioc (-Real.pi) Real.pi) :
    atan2f (radius * Real.sin angle) (radius * Real.cos angle) = angle := by
  have polar := Complex.arg_mul_cos_add_sin_mul_I positive range
  have point : (⟨radius * Real.cos angle, radius * Real.sin angle⟩ : ℂ) =
      radius * (Complex.cos angle + Complex.sin angle * Complex.I) := by
    apply Complex.ext
    · simp [← Complex.ofReal_cos, ← Complex.ofReal_sin]
    · simp [← Complex.ofReal_cos, ← Complex.ofReal_sin]
  exact (congrArg Complex.arg point).trans polar

end RoboBand.Virtual
