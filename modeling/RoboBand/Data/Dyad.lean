import Mathlib.Analysis.CStarAlgebra.Classes
import Mathlib.Analysis.InnerProductSpace.Calculus
import Mathlib.Analysis.SpecialFunctions.Complex.LogDeriv
import Mathlib.Analysis.SpecialFunctions.Sqrt
import Mathlib.Analysis.SpecialFunctions.Trigonometric.Inverse

namespace RoboBand.Data

/-! Two links of one length in the plane, joined at a pin.  Their other ends are
`base` apart, and the pin lies to the left of the way along `base`. -/

section Position

variable {side : ℝ} {base : ℂ}

/-- How far the link at the end of `base` is turned from the negative axis,
clockwise. -/
noncomputable def dyadAngle (side : ℝ) (base : ℂ) : ℝ :=
  Real.arccos (‖base‖ / (side + side)) - Complex.arg base

theorem dyadAngle_eq (side : ℝ) (base : ℂ) :
    dyadAngle side base =
      Real.arccos (‖base‖ / (2 * side)) - Complex.arg base := by
  rw [dyadAngle, two_mul]

noncomputable def dyadLink (side : ℝ) (base : ℂ) : ℂ :=
  ⟨-(side * Real.cos (dyadAngle side base)),
    side * Real.sin (dyadAngle side base)⟩

def cross (first second : ℂ) : ℝ :=
  first.re * second.im - first.im * second.re

theorem cross_swap (first second : ℂ) :
    cross first second = -cross second first := by
  rw [cross, cross]
  ring

theorem dyadAngle_along (side : ℝ) (base : ℂ) :
    base.re * Real.cos (dyadAngle side base) -
        base.im * Real.sin (dyadAngle side base) =
      ‖base‖ * Real.cos (Real.arccos (‖base‖ / (2 * side))) := by
  have together : Real.arccos (‖base‖ / (2 * side)) =
      Complex.arg base + dyadAngle side base := by
    rw [dyadAngle_eq, add_sub_cancel]
  rw [together, Real.cos_add, mul_sub, ← mul_assoc, ← mul_assoc,
    Complex.norm_mul_cos_arg, Complex.norm_mul_sin_arg]

theorem dyadAngle_across (side : ℝ) (base : ℂ) :
    base.re * Real.sin (dyadAngle side base) +
        base.im * Real.cos (dyadAngle side base) =
      ‖base‖ * Real.sin (Real.arccos (‖base‖ / (2 * side))) := by
  have together : Real.arccos (‖base‖ / (2 * side)) =
      Complex.arg base + dyadAngle side base := by
    rw [dyadAngle_eq, add_sub_cancel]
  rw [together, Real.sin_add, mul_add, ← mul_assoc, ← mul_assoc,
    Complex.norm_mul_cos_arg, Complex.norm_mul_sin_arg]
  ring

theorem norm_div_le_one (positive : 0 < side) (reach : ‖base‖ ≤ 2 * side) :
    ‖base‖ / (2 * side) ≤ 1 :=
  (div_le_one (by positivity)).mpr reach

theorem cos_arccos_dyad (positive : 0 < side) (reach : ‖base‖ ≤ 2 * side) :
    Real.cos (Real.arccos (‖base‖ / (2 * side))) = ‖base‖ / (2 * side) := by
  refine Real.cos_arccos ?_ (norm_div_le_one positive reach)
  have nonneg : 0 ≤ ‖base‖ / (2 * side) := by positivity
  linarith

theorem norm_dyadLink (positive : 0 < side) (base : ℂ) :
    ‖dyadLink side base‖ = side := by
  have square : ‖dyadLink side base‖ ^ 2 = side ^ 2 := by
    rw [Complex.sq_norm, Complex.normSq_apply]
    simp only [dyadLink]
    linear_combination side ^ 2 * Real.cos_sq_add_sin_sq (dyadAngle side base)
  exact (sq_eq_sq₀ (norm_nonneg _) positive.le).mp square

theorem norm_base_add_dyadLink (positive : 0 < side)
    (reach : ‖base‖ ≤ 2 * side) : ‖base + dyadLink side base‖ = side := by
  have along := dyadAngle_along side base
  rw [cos_arccos_dyad positive reach] at along
  have doubled : 2 * side * (‖base‖ * (‖base‖ / (2 * side))) = ‖base‖ ^ 2 := by
    field_simp
  have square : ‖base + dyadLink side base‖ ^ 2 = side ^ 2 := by
    rw [Complex.sq_norm, Complex.normSq_apply]
    rw [Complex.sq_norm, Complex.normSq_apply] at doubled
    simp only [dyadLink, Complex.add_re, Complex.add_im]
    linear_combination
      side ^ 2 * Real.cos_sq_add_sin_sq (dyadAngle side base) -
        2 * side * along - doubled
  exact (sq_eq_sq₀ (norm_nonneg _) positive.le).mp square

theorem cross_base_dyad (side : ℝ) (base : ℂ) :
    cross base (base + dyadLink side base) =
      side * (‖base‖ * Real.sin (Real.arccos (‖base‖ / (2 * side)))) := by
  rw [← dyadAngle_across, cross]
  simp only [dyadLink, Complex.add_re, Complex.add_im]
  ring

theorem cross_base_dyad_nonneg (positive : 0 < side) (base : ℂ) :
    0 ≤ cross base (base + dyadLink side base) := by
  rw [cross_base_dyad]
  have above : 0 ≤ Real.sin (Real.arccos (‖base‖ / (2 * side))) :=
    Real.sin_nonneg_of_nonneg_of_le_pi (Real.arccos_nonneg _)
      (Real.arccos_le_pi _)
  positivity

/-- The pin is off the line of the ends unless these coincide or the links are
stretched. -/
theorem cross_base_dyad_eq_zero_iff (positive : 0 < side)
    (reach : ‖base‖ ≤ 2 * side) :
    cross base (base + dyadLink side base) = 0 ↔
      base = 0 ∨ ‖base‖ = 2 * side := by
  rw [cross_base_dyad, mul_eq_zero_iff_left positive.ne', mul_eq_zero,
    norm_eq_zero]
  have nonneg : 0 ≤ ‖base‖ / (2 * side) := by positivity
  have doubled : ‖base‖ / (2 * side) = 1 ↔ ‖base‖ = 2 * side :=
    div_eq_one_iff_eq (by positivity)
  rw [Real.sin_arccos, Real.sqrt_eq_zero', sub_nonpos, one_le_sq_iff₀ nonneg,
    (norm_div_le_one positive reach).ge_iff_eq, doubled]

theorem sqrt_eq_sin_arccos (positive : 0 < side) (apart : base ≠ 0)
    (reach : ‖base‖ ≤ 2 * side) :
    Real.sqrt (side ^ 2 / Complex.normSq base - 1 / 4) =
      side * Real.sin (Real.arccos (‖base‖ / (2 * side))) / ‖base‖ := by
  have length : 0 < ‖base‖ := norm_pos_iff.mpr apart
  have above : 0 ≤ Real.sin (Real.arccos (‖base‖ / (2 * side))) :=
    Real.sin_nonneg_of_nonneg_of_le_pi (Real.arccos_nonneg _)
      (Real.arccos_le_pi _)
  have square : side ^ 2 / Complex.normSq base - 1 / 4 =
      (side * Real.sin (Real.arccos (‖base‖ / (2 * side))) / ‖base‖) ^ 2 := by
    rw [div_pow, mul_pow, Real.sin_sq, cos_arccos_dyad positive reach,
      Complex.normSq_eq_norm_sq]
    field_simp
    ring
  rw [square, Real.sqrt_sq (by positivity)]

/-- Without the angles: half the way along `base`, and then to the left. -/
theorem dyadLink_eq (positive : 0 < side) (apart : base ≠ 0)
    (reach : ‖base‖ ≤ 2 * side) :
    dyadLink side base =
      base * (-(1 / 2) +
        Real.sqrt (side ^ 2 / Complex.normSq base - 1 / 4) * Complex.I) := by
  have length : Complex.normSq base ≠ 0 := Complex.normSq_eq_zero.not.mpr apart
  have along := dyadAngle_along side base
  have across := dyadAngle_across side base
  have root := sqrt_eq_sin_arccos positive apart reach
  rw [cos_arccos_dyad positive reach] at along
  generalize Real.sqrt (side ^ 2 / Complex.normSq base - 1 / 4) = k at root ⊢
  have alongSide : side * (base.re * Real.cos (dyadAngle side base) -
      base.im * Real.sin (dyadAngle side base)) = Complex.normSq base / 2 := by
    rw [along, Complex.normSq_eq_norm_sq]
    field_simp
  have acrossSide : side * (base.re * Real.sin (dyadAngle side base) +
      base.im * Real.cos (dyadAngle side base)) =
        Complex.normSq base * k := by
    rw [across, root, Complex.normSq_eq_norm_sq]
    have nonzero : ‖base‖ ≠ 0 := norm_ne_zero_iff.mpr apart
    field_simp
  have parts : base * (-(1 / 2) + k * Complex.I) =
      ⟨-(base.re / 2) - base.im * k, base.re * k - base.im / 2⟩ := by
    apply Complex.ext
    · simp
      ring
    · simp
      ring
  rw [Complex.normSq_apply] at length alongSide acrossSide
  rw [parts, dyadLink, Complex.mk.injEq]
  constructor
  · apply mul_left_cancel₀ length
    linear_combination -base.re * alongSide - base.im * acrossSide
  · apply mul_left_cancel₀ length
    linear_combination base.re * acrossSide - base.im * alongSide

end Position

/-! How the pin moves while the ends do. -/

section Motion

variable {t : ℝ}

theorem differentiableAt_dyadLink {side : ℝ} (positive : 0 < side)
    {base : ℝ → ℂ} (moves : DifferentiableAt ℝ base t) (apart : base t ≠ 0)
    (bent : ‖base t‖ < 2 * side) :
    DifferentiableAt ℝ (fun s => dyadLink side (base s)) t := by
  have near : (fun s => dyadLink side (base s)) =ᶠ[nhds t] fun s =>
      base s * (-(1 / 2) +
        Real.sqrt (side ^ 2 / Complex.normSq (base s) - 1 / 4) *
          Complex.I) := by
    filter_upwards [moves.continuousAt.eventually_ne apart,
      moves.continuousAt.norm.eventually_lt_const bent] with s apart bent
    exact dyadLink_eq positive apart bent.le
  refine DifferentiableAt.congr_of_eventuallyEq ?_ near
  have length : Complex.normSq (base t) ≠ 0 :=
    Complex.normSq_eq_zero.not.mpr apart
  have square : DifferentiableAt ℝ (fun s => Complex.normSq (base s)) t := by
    simp only [Complex.normSq_eq_norm_sq]
    exact moves.norm_sq ℝ
  have inside : side ^ 2 / Complex.normSq (base t) - 1 / 4 ≠ 0 := by
    have shorter : Complex.normSq (base t) < (2 * side) ^ 2 := by
      rw [Complex.normSq_eq_norm_sq]
      exact pow_lt_pow_left₀ bent (norm_nonneg _) two_ne_zero
    have positiveLength : 0 < Complex.normSq (base t) :=
      Complex.normSq_pos.mpr apart
    have quarter : 1 / 4 < side ^ 2 / Complex.normSq (base t) := by
      rw [lt_div_iff₀ positiveLength]
      linarith
    linarith
  have quotient := (differentiableAt_const (side ^ 2)).div square length
  have root := (quotient.sub_const (1 / 4)).sqrt inside
  have complexRoot := Complex.ofRealCLM.differentiableAt.comp t root
  exact moves.mul ((complexRoot.mul_const Complex.I).const_add _)

def dot (first second : ℂ) : ℝ :=
  first.re * second.re + first.im * second.im

/-- The velocity of the end of an arm that turns about its other end. -/
def turning (rate : ℝ) (arm : ℂ) : ℂ := ⟨-(rate * arm.im), rate * arm.re⟩

/-- A point that keeps its distance from zero moves across the way to it. -/
theorem dot_eq_zero_of_norm_eq {f : ℝ → ℂ} {f' : ℂ} {side : ℝ}
    (moves : HasDerivAt f f' t) (keeps : ∀ᶠ s in nhds t, ‖f s‖ = side) :
    dot (f t) f' = 0 := by
  have constant : HasDerivAt (fun s => ‖f s‖ ^ 2) 0 t := by
    refine (hasDerivAt_const t (side ^ 2)).congr_of_eventuallyEq ?_
    filter_upwards [keeps] with s same
    rw [same]
  have product := moves.norm_sq.unique constant
  rw [mul_eq_zero_iff_left two_ne_zero, Complex.inner] at product
  simpa [dot, mul_comm] using product

theorem eq_turning {arm link velocity drive : ℂ}
    (aroundArm : dot arm velocity = 0)
    (aroundLink : dot link (velocity - drive) = 0)
    (bent : cross arm link ≠ 0) :
    velocity = turning (dot link drive / cross arm link) arm := by
  rw [dot] at aroundArm aroundLink
  rw [Complex.sub_re, Complex.sub_im] at aroundLink
  apply Complex.ext
  · change velocity.re = -(dot link drive / cross arm link * arm.im)
    rw [div_mul_eq_mul_div, ← neg_div, eq_div_iff bent, dot, cross]
    linear_combination link.im * aroundArm - arm.im * aroundLink
  · change velocity.im = dot link drive / cross arm link * arm.re
    rw [div_mul_eq_mul_div, eq_div_iff bent, dot, cross]
    linear_combination arm.re * aroundLink - link.re * aroundArm

/-- A pin at fixed distances from a moving end and a resting one turns about the
resting end. -/
theorem hasDerivAt_pin {pin first second : ℝ → ℂ} {first' : ℂ}
    {firstSide secondSide : ℝ} (moves : DifferentiableAt ℝ pin t)
    (drives : HasDerivAt first first' t) (rests : HasDerivAt second 0 t)
    (keepsFirst : ∀ᶠ s in nhds t, ‖pin s - first s‖ = firstSide)
    (keepsSecond : ∀ᶠ s in nhds t, ‖pin s - second s‖ = secondSide)
    (bent : cross (pin t - second t) (pin t - first t) ≠ 0) :
    HasDerivAt pin
      (turning (dot (pin t - first t) first' /
          cross (pin t - second t) (pin t - first t)) (pin t - second t))
      t := by
  have turns := moves.hasDerivAt
  have aroundFirst := dot_eq_zero_of_norm_eq (turns.sub drives) keepsFirst
  have aroundSecond := dot_eq_zero_of_norm_eq (turns.sub rests) keepsSecond
  rw [sub_zero] at aroundSecond
  exact turns.congr_deriv (eq_turning aroundSecond aroundFirst bent)

theorem hasDerivAt_mk {f g : ℝ → ℝ} {f' g' : ℝ} (first : HasDerivAt f f' t)
    (second : HasDerivAt g g' t) :
    HasDerivAt (fun s => (⟨f s, g s⟩ : ℂ)) ⟨f', g'⟩ t := by
  simp only [Complex.mk_eq_add_mul_I]
  exact first.ofReal_comp.add (second.ofReal_comp.mul_const Complex.I)

theorem hasDerivAt_norm {f : ℝ → ℂ} {f' : ℂ} (moves : HasDerivAt f f' t)
    (apart : f t ≠ 0) :
    HasDerivAt (fun s => ‖f s‖) (dot (f t) f' / ‖f t‖) t := by
  have length : ‖f t‖ ≠ 0 := norm_ne_zero_iff.mpr apart
  have root := moves.norm_sq.sqrt (pow_ne_zero 2 length)
  simp only [Real.sqrt_sq (norm_nonneg _)] at root
  refine root.congr_deriv ?_
  rw [mul_div_mul_left _ _ two_ne_zero, Complex.inner]
  simp [dot, mul_comm]

theorem hasDerivAt_arg {f : ℝ → ℂ} {f' : ℂ} (moves : HasDerivAt f f' t)
    (slit : f t ∈ Complex.slitPlane) :
    HasDerivAt (fun s => Complex.arg (f s))
      (cross (f t) f' / Complex.normSq (f t)) t := by
  have turns := Complex.imCLM.hasFDerivAt.comp_hasDerivAt t
    (moves.clog_real slit)
  have same : (fun s => Complex.arg (f s)) =
      Complex.imCLM ∘ fun s => Complex.log (f s) :=
    funext fun s => (Complex.log_im (f s)).symm
  rw [same]
  refine turns.congr_deriv ?_
  rw [Complex.imCLM_apply, Complex.div_im, cross]
  ring

end Motion

end RoboBand.Data
