import RoboBand.Data.Dyad
import RoboBand.Virtual.FiveLink

namespace RoboBand.Virtual.FiveLink

open RoboBand.Data FloatMath

/-! The leg in the plane, with points as complex numbers: the knees at the ends
of the cranks, and the foot at the pin of the two couplers. -/

noncomputable section

section Points

variable (leg : FiveLink ℝ)

/-- The end of the first crank. -/
def pointB1 : ℂ :=
  ⟨leg.lA - leg.lB * Real.cos leg.varphi1, leg.lB * Real.sin leg.varphi1⟩

def pointB2 : ℂ :=
  ⟨-leg.lA + leg.lB * Real.cos leg.varphi2, leg.lB * Real.sin leg.varphi2⟩

/-- The foot as `forward_solve` finds it. -/
def pointC : ℂ := ⟨leg.forwardSolve.xC, leg.forwardSolve.yC⟩

/-- The chain closes, and always to the same side. -/
structure ClosesChain : Prop where
  first : ‖leg.pointC - leg.pointB1‖ = leg.lC
  second : ‖leg.pointC - leg.pointB2‖ = leg.lC
  side : 0 ≤ cross (leg.pointB1 - leg.pointB2) (leg.pointC - leg.pointB2)
  polar : leg.pointC =
    ⟨leg.forwardSolve.l * Real.sin leg.forwardSolve.thetaL,
      leg.forwardSolve.l * Real.cos leg.forwardSolve.thetaL⟩

theorem sqrtf_eq_norm (x y : ℝ) : sqrtf (x * x + y * y) = ‖(⟨x, y⟩ : ℂ)‖ := by
  rw [Complex.norm_def, Complex.normSq_apply]
  rfl

theorem varphiB1_eq : leg.forwardSolve.varphiB1 =
    dyadAngle leg.lC (leg.pointB1 - leg.pointB2) := by
  rw [dyadAngle_eq, forwardSolve]
  simp only [sqrtf_eq_norm]
  rfl

theorem pointC_eq : leg.pointC =
    leg.pointB1 + dyadLink leg.lC (leg.pointB1 - leg.pointB2) := by
  rw [dyadLink, ← varphiB1_eq]
  apply Complex.ext
  · exact sub_eq_add_neg _ _
  · rfl

theorem pointC_sub_pointB1 : leg.pointC - leg.pointB1 =
    dyadLink leg.lC (leg.pointB1 - leg.pointB2) := by
  rw [pointC_eq, add_sub_cancel_left]

theorem pointC_sub_pointB2 : leg.pointC - leg.pointB2 =
    leg.pointB1 - leg.pointB2 +
      dyadLink leg.lC (leg.pointB1 - leg.pointB2) := by
  rw [pointC_eq, add_sub_right_comm]

theorem norm_pointC_sub_pointB1 (positive : 0 < leg.lC) :
    ‖leg.pointC - leg.pointB1‖ = leg.lC := by
  rw [pointC_sub_pointB1, norm_dyadLink positive]

theorem norm_pointC_sub_pointB2 (positive : 0 < leg.lC)
    (reach : ‖leg.pointB1 - leg.pointB2‖ ≤ 2 * leg.lC) :
    ‖leg.pointC - leg.pointB2‖ = leg.lC := by
  rw [pointC_sub_pointB2, norm_base_add_dyadLink positive reach]

theorem l_eq : leg.forwardSolve.l = ‖leg.pointC‖ :=
  sqrtf_eq_norm leg.forwardSolve.xC leg.forwardSolve.yC

theorem pointC_polar : leg.pointC =
    ⟨leg.forwardSolve.l * Real.sin leg.forwardSolve.thetaL,
      leg.forwardSolve.l * Real.cos leg.forwardSolve.thetaL⟩ := by
  have length : ‖leg.pointC‖ =
      ‖(⟨leg.forwardSolve.yC, leg.forwardSolve.xC⟩ : ℂ)‖ := by
    rw [Complex.norm_def, Complex.norm_def, Complex.normSq_mk,
      pointC, Complex.normSq_mk, add_comm]
  rw [l_eq, length]
  apply Complex.ext
  · exact (Complex.norm_mul_sin_arg
      ⟨leg.forwardSolve.yC, leg.forwardSolve.xC⟩).symm
  · exact (Complex.norm_mul_cos_arg
      ⟨leg.forwardSolve.yC, leg.forwardSolve.xC⟩).symm

end Points

theorem forwardSolve_closesChain (leg : FiveLink ℝ) (positive : 0 < leg.lC)
    (reach : ‖leg.pointB1 - leg.pointB2‖ ≤ 2 * leg.lC) :
    leg.ClosesChain where
  first := leg.norm_pointC_sub_pointB1 positive
  second := leg.norm_pointC_sub_pointB2 positive reach
  side := by
    rw [pointC_sub_pointB2]
    exact cross_base_dyad_nonneg positive _
  polar := leg.pointC_polar

/-- A leg of three link lengths at two angles. -/
def posed (lA lB lC varphi1 varphi2 : ℝ) : FiveLink ℝ :=
  { FiveLink.new ![lA, lB, lC] ⟨0, 0⟩ ⟨0, 0⟩ 0 with
    varphi1 := varphi1
    varphi2 := varphi2 }

/-- Both cranks lie along the body. -/
theorem forwardSolve_closesChain_flat : (posed 1 2 4 0 0).ClosesChain := by
  have base : (posed 1 2 4 0 0).pointB1 - (posed 1 2 4 0 0).pointB2 =
      (-2 : ℝ) := by
    apply Complex.ext
    · norm_num [posed, FiveLink.new, pointB1, pointB2]
    · norm_num [posed, FiveLink.new, pointB1, pointB2]
  refine forwardSolve_closesChain _ (four_pos : (0 : ℝ) < 4) ?_
  rw [base, Complex.norm_real]
  change ‖(-2 : ℝ)‖ ≤ 2 * 4
  norm_num

section Denominators

variable (leg : FiveLink ℝ)

/-- The angle of the second coupler, and the sine that `jacobian_calc` divides
by. -/
def varphiB2 : ℝ := atan2f (leg.yC - leg.yB2) (leg.xC - leg.xB2)

def sinSum : ℝ := sinf (leg.varphiB1 + leg.varphiB2)

theorem jacobianTrans_jacobianCalc :
    leg.jacobianCalc.jacobianTrans =
      !![-leg.lB * Real.cos (leg.thetaL + leg.varphiB2) *
            Real.sin (leg.varphi1 - leg.varphiB1) / leg.sinSum,
          leg.lB / leg.l * Real.sin (leg.thetaL + leg.varphiB2) *
            Real.sin (leg.varphi1 - leg.varphiB1) / leg.sinSum;
        -leg.lB * Real.cos (leg.thetaL - leg.varphiB1) *
            Real.sin (leg.varphi2 - leg.varphiB2) / leg.sinSum,
          leg.lB / leg.l * Real.sin (leg.thetaL - leg.varphiB1) *
            Real.sin (leg.varphi2 - leg.varphiB2) / leg.sinSum] := rfl

theorem det_jacobianTrans (extended : leg.l ≠ 0) (bent : leg.sinSum ≠ 0) :
    leg.jacobianCalc.jacobianTrans.det =
      leg.lB ^ 2 * Real.sin (leg.varphi1 - leg.varphiB1) *
        Real.sin (leg.varphi2 - leg.varphiB2) / (leg.l * leg.sinSum) := by
  have sum : leg.sinSum = Real.sin ((leg.thetaL + leg.varphiB2) -
      (leg.thetaL - leg.varphiB1)) := by
    rw [add_sub_sub_cancel, add_comm]
    rfl
  rw [Real.sin_sub] at sum
  rw [jacobianTrans_jacobianCalc, Matrix.det_fin_two_of]
  calc _ = leg.lB ^ 2 * Real.sin (leg.varphi1 - leg.varphiB1) *
          Real.sin (leg.varphi2 - leg.varphiB2) / (leg.l * leg.sinSum ^ 2) *
          (Real.sin (leg.thetaL + leg.varphiB2) *
              Real.cos (leg.thetaL - leg.varphiB1) -
            Real.cos (leg.thetaL + leg.varphiB2) *
              Real.sin (leg.thetaL - leg.varphiB1)) := by
        field_simp
        ring
    _ = _ := by
        rw [← sum]
        field_simp

/-- The second coupler in polar form. -/
theorem pointC_sub_pointB2_polar :
    leg.pointC - leg.pointB2 =
      ⟨‖leg.pointC - leg.pointB2‖ * Real.cos leg.forwardSolve.varphiB2,
        ‖leg.pointC - leg.pointB2‖ * Real.sin leg.forwardSolve.varphiB2⟩ :=
  Complex.ext (Complex.norm_mul_cos_arg (leg.pointC - leg.pointB2)).symm
    (Complex.norm_mul_sin_arg (leg.pointC - leg.pointB2)).symm

theorem cross_couplers (positive : 0 < leg.lC)
    (reach : ‖leg.pointB1 - leg.pointB2‖ ≤ 2 * leg.lC) :
    cross (leg.pointC - leg.pointB2) (leg.pointC - leg.pointB1) =
      leg.lC ^ 2 * leg.forwardSolve.sinSum := by
  have second := leg.norm_pointC_sub_pointB2 positive reach
  have sum : leg.forwardSolve.sinSum = Real.sin
      (leg.forwardSolve.varphiB1 + leg.forwardSolve.varphiB2) := rfl
  rw [pointC_sub_pointB2_polar, second, pointC_sub_pointB1, dyadLink,
    ← varphiB1_eq, sum, Real.sin_add, cross]
  ring

theorem cross_couplers_eq_base :
    cross (leg.pointC - leg.pointB2) (leg.pointC - leg.pointB1) =
      cross (leg.pointB1 - leg.pointB2) (leg.pointC - leg.pointB2) := by
  rw [cross, cross]
  simp only [Complex.sub_re, Complex.sub_im]
  ring

theorem sinSum_eq_zero_iff (positive : 0 < leg.lC)
    (reach : ‖leg.pointB1 - leg.pointB2‖ ≤ 2 * leg.lC) :
    leg.forwardSolve.sinSum = 0 ↔
      leg.pointB1 - leg.pointB2 = 0 ∨
        ‖leg.pointB1 - leg.pointB2‖ = 2 * leg.lC := by
  rw [← cross_base_dyad_eq_zero_iff positive reach, ← pointC_sub_pointB2,
    ← cross_couplers_eq_base, cross_couplers leg positive reach,
    mul_eq_zero_iff_left (pow_ne_zero 2 positive.ne')]

/-- Both knees at one point. -/
def KneesMeet : Prop :=
  Real.cos leg.varphi1 = leg.lA / leg.lB ∧
    Real.cos leg.varphi2 = leg.lA / leg.lB ∧
    Real.sin leg.varphi1 = Real.sin leg.varphi2

theorem kneesMeet_iff (short : 0 < leg.lA) (crank : 0 < leg.lB) :
    leg.pointB1 - leg.pointB2 = 0 ↔ leg.KneesMeet := by
  rw [sub_eq_zero, pointB1, pointB2, Complex.mk.injEq, KneesMeet]
  constructor
  · rintro ⟨across, above⟩
    have sines := mul_left_cancel₀ crank.ne' above
    have sum : leg.lB * (Real.cos leg.varphi1 + Real.cos leg.varphi2) =
        2 * leg.lA := by
      linear_combination -across
    have nonzero : leg.lB *
        (Real.cos leg.varphi1 + Real.cos leg.varphi2) ≠ 0 := by
      rw [sum]
      positivity
    -- the cosines have equal squares, and they are not opposite
    have cosines : Real.cos leg.varphi1 = Real.cos leg.varphi2 := by
      apply mul_left_cancel₀ nonzero
      linear_combination leg.lB * (Real.cos_sq_add_sin_sq leg.varphi1 -
        Real.cos_sq_add_sin_sq leg.varphi2 -
        (Real.sin leg.varphi1 + Real.sin leg.varphi2) * sines)
    have first : Real.cos leg.varphi1 = leg.lA / leg.lB := by
      rw [eq_div_iff crank.ne']
      linear_combination sum / 2 + leg.lB / 2 * cosines
    exact ⟨first, cosines ▸ first, sines⟩
  · rintro ⟨first, second, sines⟩
    rw [first, second, sines, mul_div_cancel₀ _ crank.ne', sub_self,
      neg_add_cancel]
    exact ⟨rfl, rfl⟩

theorem norm_le_of_crank {point : ℂ} {body crank angle : ℝ}
    (bodyPositive : 0 < body) (crankPositive : 0 < crank)
    (across : point.re ^ 2 = (body - crank * Real.cos angle) ^ 2)
    (above : point.im = crank * Real.sin angle) :
    ‖point‖ ≤ body + crank := by
  refine (sq_le_sq₀ (norm_nonneg _) (by positivity)).mp ?_
  have least : 0 ≤ body * crank * (1 + Real.cos angle) := by
    have cosine := Real.neg_one_le_cos angle
    have nonneg : 0 ≤ 1 + Real.cos angle := by linarith
    positivity
  rw [Complex.sq_norm, Complex.normSq_apply, ← sq, ← sq, across, above]
  linear_combination 2 * least + crank ^ 2 * Real.cos_sq_add_sin_sq angle

theorem norm_pointB1_le (short : 0 < leg.lA) (crank : 0 < leg.lB) :
    ‖leg.pointB1‖ ≤ leg.lA + leg.lB :=
  norm_le_of_crank short crank rfl rfl

theorem norm_pointB2_le (short : 0 < leg.lA) (crank : 0 < leg.lB) :
    ‖leg.pointB2‖ ≤ leg.lA + leg.lB := by
  refine norm_le_of_crank short crank ?_ rfl
  rw [pointB2]
  ring

end Denominators

/-- With long couplers every pose is reached, the foot never comes to the
middle of the body, and the sine is zero where the knees meet.  Elsewhere the
matrix is singular where a crank is in line with its coupler. -/
theorem denominators_of_long_couplers (leg : FiveLink ℝ) (short : 0 < leg.lA)
    (crank : leg.lA < leg.lB) (long : leg.lA + leg.lB < leg.lC) :
    leg.forwardSolve.l ≠ 0 ∧
      (leg.forwardSolve.sinSum = 0 ↔ leg.KneesMeet) ∧
      (¬ leg.KneesMeet →
        (leg.forwardSolve.jacobianCalc.jacobianTrans.det = 0 ↔
          Real.sin (leg.varphi1 - leg.forwardSolve.varphiB1) = 0 ∨
            Real.sin (leg.varphi2 - leg.forwardSolve.varphiB2) = 0)) := by
  have crankPositive : 0 < leg.lB := short.trans crank
  have positive : 0 < leg.lC := by linarith
  have first := leg.norm_pointB1_le short crankPositive
  have second := leg.norm_pointB2_le short crankPositive
  have inside : ‖leg.pointB1 - leg.pointB2‖ < 2 * leg.lC := by
    have triangle := norm_sub_le leg.pointB1 leg.pointB2
    linarith
  have extended : leg.forwardSolve.l ≠ 0 := by
    have triangle := norm_sub_le leg.pointC leg.pointB1
    rw [leg.norm_pointC_sub_pointB1 positive, ← l_eq] at triangle
    exact (by linarith : 0 < leg.forwardSolve.l).ne'
  have meets : leg.forwardSolve.sinSum = 0 ↔ leg.KneesMeet := by
    rw [sinSum_eq_zero_iff leg positive inside.le, or_iff_left inside.ne,
      kneesMeet_iff leg short crankPositive]
  refine ⟨extended, meets, fun apart => ?_⟩
  have bent := meets.not.mpr apart
  rw [det_jacobianTrans _ extended bent,
    div_eq_zero_iff, or_iff_left (mul_ne_zero extended bent), mul_assoc]
  change leg.lB ^ 2 * _ = 0 ↔ _
  rw [mul_eq_zero_iff_left (pow_ne_zero 2 crankPositive.ne'), mul_eq_zero]
  rfl

theorem denominators_of_flat :
    let leg := posed 1 2 4 0 0
    leg.forwardSolve.l ≠ 0 ∧
      (leg.forwardSolve.sinSum = 0 ↔ leg.KneesMeet) ∧
      (¬ leg.KneesMeet →
        (leg.forwardSolve.jacobianCalc.jacobianTrans.det = 0 ↔
          Real.sin (leg.varphi1 - leg.forwardSolve.varphiB1) = 0 ∨
            Real.sin (leg.varphi2 - leg.forwardSolve.varphiB2) = 0)) :=
  denominators_of_long_couplers (posed 1 2 4 0 0) (one_pos : (0 : ℝ) < 1)
    (one_lt_two : (1 : ℝ) < 2) (by
      change (1 : ℝ) + 2 < 4
      norm_num)

/-- Cranks of length two, on pivots two apart, meet at sixty degrees. -/
theorem not_forall_denominators_ne_zero :
    ¬ ∀ leg : FiveLink ℝ, 0 < leg.lA → leg.lA < leg.lB →
      leg.lA + leg.lB < leg.lC →
        leg.forwardSolve.l ≠ 0 ∧ leg.forwardSolve.sinSum ≠ 0 := by
  intro nonzero
  let leg := posed 1 2 4 (Real.pi / 3) (Real.pi / 3)
  have long : leg.lA + leg.lB < leg.lC := by
    change (1 : ℝ) + 2 < 4
    norm_num
  refine (nonzero leg (one_pos : (0 : ℝ) < 1) (one_lt_two : (1 : ℝ) < 2)
    long).2 ?_
  have meet : leg.pointB1 - leg.pointB2 = 0 :=
    (kneesMeet_iff leg (one_pos : (0 : ℝ) < 1) (two_pos : (0 : ℝ) < 2)).mpr
      ⟨Real.cos_pi_div_three, Real.cos_pi_div_three, rfl⟩
  have positive : (0 : ℝ) < leg.lC := (four_pos : (0 : ℝ) < 4)
  refine (sinSum_eq_zero_iff leg positive ?_).mpr (.inl meet)
  rw [meet, norm_zero]
  positivity

end

end RoboBand.Virtual.FiveLink
