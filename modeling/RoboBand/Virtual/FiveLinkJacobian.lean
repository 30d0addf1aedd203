import RoboBand.Virtual.FiveLinkGeometry
import Mathlib.Analysis.SpecialFunctions.Trigonometric.Deriv

namespace RoboBand.Virtual.FiveLink

open RoboBand.Data

/-! The derivatives of the leg's length and angle while one of the motors
turns. -/

noncomputable section

/-- The foot is not on the branch cut of the angle, which ends in the middle of
the body. -/
def OffCut (leg : FiveLink ℝ) : Prop :=
  0 < leg.forwardSolve.yC ∨ leg.forwardSolve.xC ≠ 0

/-- The knees are apart, and the couplers are not stretched. -/
structure Bent (leg : FiveLink ℝ) : Prop where
  positive : 0 < leg.lC
  apart : 0 < ‖leg.pointB1 - leg.pointB2‖
  inside : ‖leg.pointB1 - leg.pointB2‖ < 2 * leg.lC

theorem Bent.sinSum_ne_zero {leg : FiveLink ℝ} (bent : leg.Bent) :
    leg.forwardSolve.sinSum ≠ 0 := by
  rw [Ne, sinSum_eq_zero_iff leg bent.positive bent.inside.le, not_or]
  exact ⟨norm_pos_iff.mp bent.apart, bent.inside.ne⟩

theorem OffCut.l_ne_zero {leg : FiveLink ℝ} (off : leg.OffCut) :
    leg.forwardSolve.l ≠ 0 := by
  rw [l_eq, norm_ne_zero_iff]
  intro middle
  obtain ⟨across, above⟩ := Complex.ext_iff.mp middle
  obtain front | beside := off
  · exact front.ne' above
  · exact beside across

section Path

variable {path : ℝ → FiveLink ℝ} {t : ℝ} {foot' : ℂ}

theorem hasDerivAt_l
    (moves : HasDerivAt (fun s => (path s).pointC) foot' t)
    (extended : (path t).forwardSolve.l ≠ 0) :
    HasDerivAt (fun s => (path s).forwardSolve.l)
      (Real.sin (path t).forwardSolve.thetaL * foot'.re +
        Real.cos (path t).forwardSolve.thetaL * foot'.im) t := by
  have apart : (path t).pointC ≠ 0 := by
    rwa [← norm_ne_zero_iff, ← l_eq]
  have grows := hasDerivAt_norm moves apart
  simp only [← l_eq] at grows
  refine grows.congr_deriv ?_
  rw [dot, pointC_polar]
  field_simp

theorem hasDerivAt_thetaL
    (moves : HasDerivAt (fun s => (path s).pointC) foot' t)
    (off : (path t).OffCut) :
    HasDerivAt (fun s => (path s).forwardSolve.thetaL)
      ((Real.cos (path t).forwardSolve.thetaL * foot'.re -
        Real.sin (path t).forwardSolve.thetaL * foot'.im) /
          (path t).forwardSolve.l) t := by
  have swapped : HasDerivAt
      (fun s => (⟨(path s).forwardSolve.yC, (path s).forwardSolve.xC⟩ : ℂ))
      ⟨foot'.im, foot'.re⟩ t :=
    hasDerivAt_mk (Complex.imCLM.hasFDerivAt.comp_hasDerivAt t moves)
      (Complex.reCLM.hasFDerivAt.comp_hasDerivAt t moves)
  have turns := hasDerivAt_arg swapped off
  have extended := off.l_ne_zero
  refine turns.congr_deriv ?_
  have polar := (path t).pointC_polar
  rw [pointC, Complex.mk.injEq] at polar
  rw [cross, Complex.normSq_mk, polar.1, polar.2]
  generalize (path t).forwardSolve.l = l at extended ⊢
  generalize (path t).forwardSolve.thetaL = thetaL
  have square : l * Real.cos thetaL * (l * Real.cos thetaL) +
      l * Real.sin thetaL * (l * Real.sin thetaL) = l ^ 2 := by
    linear_combination l ^ 2 * Real.cos_sq_add_sin_sq thetaL
  rw [square]
  field_simp

/-- Close to a bent leg both couplers keep their length. -/
theorem eventually_norm_eq {base' : ℂ}
    (couplers : ∀ s, (path s).lC = (path t).lC)
    (moves : HasDerivAt (fun s => (path s).pointB1 - (path s).pointB2) base' t)
    (bent : (path t).Bent) : ∀ᶠ s in nhds t,
      ‖(path s).pointC - (path s).pointB1‖ = (path t).lC ∧
        ‖(path s).pointC - (path s).pointB2‖ = (path t).lC := by
  filter_upwards [moves.continuousAt.norm.eventually_lt_const bent.inside]
    with s inside
  rw [← couplers s] at inside ⊢
  have positive : 0 < (path s).lC := couplers s ▸ bent.positive
  exact ⟨norm_pointC_sub_pointB1 _ positive,
    norm_pointC_sub_pointB2 _ positive inside.le⟩

theorem differentiableAt_pointC {base' knee' : ℂ}
    (couplers : ∀ s, (path s).lC = (path t).lC)
    (moves : HasDerivAt (fun s => (path s).pointB1 - (path s).pointB2) base' t)
    (knee : HasDerivAt (fun s => (path s).pointB1) knee' t)
    (bent : (path t).Bent) :
    DifferentiableAt ℝ (fun s => (path s).pointC) t := by
  simp only [pointC_eq, couplers]
  exact knee.differentiableAt.add (differentiableAt_dyadLink bent.positive
    moves.differentiableAt (norm_pos_iff.mp bent.apart) bent.inside)

/-- The foot while the first knee moves: it turns about the second. -/
theorem hasDerivAt_pointC_first (path : ℝ → FiveLink ℝ) {knee' : ℂ}
    (couplers : ∀ s, (path s).lC = (path t).lC)
    (knee : HasDerivAt (fun s => (path s).pointB1) knee' t)
    (rests : HasDerivAt (fun s => (path s).pointB2) 0 t)
    (bent : (path t).Bent) :
    HasDerivAt (fun s => (path s).pointC)
      (turning
        ((Real.sin (path t).forwardSolve.varphiB1 * knee'.im -
          Real.cos (path t).forwardSolve.varphiB1 * knee'.re) /
            (path t).forwardSolve.sinSum)
        ⟨Real.cos (path t).forwardSolve.varphiB2,
          Real.sin (path t).forwardSolve.varphiB2⟩) t := by
  have moves := knee.sub rests
  have keeps := eventually_norm_eq couplers moves bent
  have second := keeps.self_of_nhds.2
  have crossed := cross_couplers (path t) bent.positive bent.inside.le
  have pin := hasDerivAt_pin (differentiableAt_pointC couplers moves knee bent)
    knee rests (keeps.mono fun _ => And.left) (keeps.mono fun _ => And.right)
    (by
      rw [crossed]
      exact mul_ne_zero (pow_ne_zero 2 bent.positive.ne')
        bent.sinSum_ne_zero)
  refine pin.congr_deriv ?_
  have coupler := bent.positive.ne'
  have turned := bent.sinSum_ne_zero
  rw [crossed, pointC_sub_pointB2_polar, second, pointC_sub_pointB1, dyadLink,
    ← varphiB1_eq, dot, turning, turning, Complex.mk.injEq]
  constructor
  · field_simp
    ring
  · field_simp
    ring

/-- The foot while the second knee moves: it turns about the first. -/
theorem hasDerivAt_pointC_second (path : ℝ → FiveLink ℝ) {knee' : ℂ}
    (couplers : ∀ s, (path s).lC = (path t).lC)
    (rests : HasDerivAt (fun s => (path s).pointB1) 0 t)
    (knee : HasDerivAt (fun s => (path s).pointB2) knee' t)
    (bent : (path t).Bent) :
    HasDerivAt (fun s => (path s).pointC)
      (turning
        (-(Real.cos (path t).forwardSolve.varphiB2 * knee'.re +
          Real.sin (path t).forwardSolve.varphiB2 * knee'.im) /
            (path t).forwardSolve.sinSum)
        ⟨-Real.cos (path t).forwardSolve.varphiB1,
          Real.sin (path t).forwardSolve.varphiB1⟩) t := by
  have moves := rests.sub knee
  have keeps := eventually_norm_eq couplers moves bent
  have second := keeps.self_of_nhds.2
  have crossed := cross_couplers (path t) bent.positive bent.inside.le
  rw [cross_swap] at crossed
  have pin := hasDerivAt_pin (differentiableAt_pointC couplers moves rests bent)
    knee rests (keeps.mono fun _ => And.right) (keeps.mono fun _ => And.left)
    (by
      rw [neg_eq_iff_eq_neg.mp crossed, neg_ne_zero]
      exact mul_ne_zero (pow_ne_zero 2 bent.positive.ne')
        bent.sinSum_ne_zero)
  refine pin.congr_deriv ?_
  have coupler := bent.positive.ne'
  have turned := bent.sinSum_ne_zero
  rw [neg_eq_iff_eq_neg.mp crossed, pointC_sub_pointB2_polar, second,
    pointC_sub_pointB1, dyadLink, ← varphiB1_eq, dot, turning, turning,
    Complex.mk.injEq]
  constructor
  · field_simp
  · field_simp

end Path

section Knees

variable (leg : FiveLink ℝ)

def turnFirst (varphi1 : ℝ) : FiveLink ℝ := { leg with varphi1 := varphi1 }

def turnSecond (varphi2 : ℝ) : FiveLink ℝ := { leg with varphi2 := varphi2 }

theorem hasDerivAt_pointB1 :
    HasDerivAt (fun varphi1 => (leg.turnFirst varphi1).pointB1)
      ⟨leg.lB * Real.sin leg.varphi1, leg.lB * Real.cos leg.varphi1⟩
      leg.varphi1 := by
  have across := ((Real.hasDerivAt_cos leg.varphi1).const_mul leg.lB).const_sub
    leg.lA
  have above := (Real.hasDerivAt_sin leg.varphi1).const_mul leg.lB
  rw [mul_neg, neg_neg] at across
  exact hasDerivAt_mk across above

theorem hasDerivAt_pointB2 :
    HasDerivAt (fun varphi2 => (leg.turnSecond varphi2).pointB2)
      ⟨-(leg.lB * Real.sin leg.varphi2), leg.lB * Real.cos leg.varphi2⟩
      leg.varphi2 := by
  have across := ((Real.hasDerivAt_cos leg.varphi2).const_mul leg.lB).const_add
    (-leg.lA)
  have above := (Real.hasDerivAt_sin leg.varphi2).const_mul leg.lB
  rw [mul_neg] at across
  exact hasDerivAt_mk across above

theorem hasDerivAt_turnFirst (bent : leg.Bent) (off : leg.OffCut) :
    HasDerivAt (fun varphi1 => (leg.turnFirst varphi1).forwardSolve.l)
        (leg.forwardSolve.jacobianCalc.jacobianTrans 0 0) leg.varphi1 ∧
      HasDerivAt (fun varphi1 => (leg.turnFirst varphi1).forwardSolve.thetaL)
        (leg.forwardSolve.jacobianCalc.jacobianTrans 0 1) leg.varphi1 := by
  have extended := off.l_ne_zero
  have turned := bent.sinSum_ne_zero
  have here : leg.turnFirst leg.varphi1 = leg := rfl
  have foot := hasDerivAt_pointC_first leg.turnFirst (fun _ => rfl)
    leg.hasDerivAt_pointB1 (hasDerivAt_const leg.varphi1 leg.pointB2) bent
  constructor
  · have entry : leg.forwardSolve.jacobianCalc.jacobianTrans 0 0 = -leg.lB *
        Real.cos (leg.forwardSolve.thetaL + leg.forwardSolve.varphiB2) *
        Real.sin (leg.varphi1 - leg.forwardSolve.varphiB1) /
          leg.forwardSolve.sinSum := rfl
    refine (hasDerivAt_l foot extended).congr_deriv ?_
    rw [here, entry, Real.cos_add, Real.sin_sub, turning]
    field_simp
    ring
  · have entry : leg.forwardSolve.jacobianCalc.jacobianTrans 0 1 =
        leg.lB / leg.forwardSolve.l *
        Real.sin (leg.forwardSolve.thetaL + leg.forwardSolve.varphiB2) *
        Real.sin (leg.varphi1 - leg.forwardSolve.varphiB1) /
          leg.forwardSolve.sinSum := rfl
    refine (hasDerivAt_thetaL foot off).congr_deriv ?_
    rw [here, entry, Real.sin_add, Real.sin_sub, turning]
    field_simp
    ring

theorem hasDerivAt_turnSecond (bent : leg.Bent) (off : leg.OffCut) :
    HasDerivAt (fun varphi2 => (leg.turnSecond varphi2).forwardSolve.l)
        (leg.forwardSolve.jacobianCalc.jacobianTrans 1 0) leg.varphi2 ∧
      HasDerivAt (fun varphi2 => (leg.turnSecond varphi2).forwardSolve.thetaL)
        (leg.forwardSolve.jacobianCalc.jacobianTrans 1 1) leg.varphi2 := by
  have extended := off.l_ne_zero
  have turned := bent.sinSum_ne_zero
  have here : leg.turnSecond leg.varphi2 = leg := rfl
  have foot := hasDerivAt_pointC_second leg.turnSecond (fun _ => rfl)
    (hasDerivAt_const leg.varphi2 leg.pointB1) leg.hasDerivAt_pointB2 bent
  constructor
  · have entry : leg.forwardSolve.jacobianCalc.jacobianTrans 1 0 = -leg.lB *
        Real.cos (leg.forwardSolve.thetaL - leg.forwardSolve.varphiB1) *
        Real.sin (leg.varphi2 - leg.forwardSolve.varphiB2) /
          leg.forwardSolve.sinSum := rfl
    refine (hasDerivAt_l foot extended).congr_deriv ?_
    rw [here, entry, Real.cos_sub, Real.sin_sub, turning]
    field_simp
    ring
  · have entry : leg.forwardSolve.jacobianCalc.jacobianTrans 1 1 =
        leg.lB / leg.forwardSolve.l *
        Real.sin (leg.forwardSolve.thetaL - leg.forwardSolve.varphiB1) *
        Real.sin (leg.varphi2 - leg.forwardSolve.varphiB2) /
          leg.forwardSolve.sinSum := rfl
    refine (hasDerivAt_thetaL foot off).congr_deriv ?_
    rw [here, entry, Real.sin_sub, Real.sin_sub, turning]
    field_simp
    ring

end Knees

/-- The rows of the matrix are the derivatives by the motors' angles. -/
structure JacobianDerives (leg : FiveLink ℝ) : Prop where
  first : HasDerivAt (fun varphi1 => (leg.turnFirst varphi1).forwardSolve.l)
      (leg.forwardSolve.jacobianCalc.jacobianTrans 0 0) leg.varphi1 ∧
    HasDerivAt (fun varphi1 => (leg.turnFirst varphi1).forwardSolve.thetaL)
      (leg.forwardSolve.jacobianCalc.jacobianTrans 0 1) leg.varphi1
  second : HasDerivAt (fun varphi2 => (leg.turnSecond varphi2).forwardSolve.l)
      (leg.forwardSolve.jacobianCalc.jacobianTrans 1 0) leg.varphi2 ∧
    HasDerivAt (fun varphi2 => (leg.turnSecond varphi2).forwardSolve.thetaL)
      (leg.forwardSolve.jacobianCalc.jacobianTrans 1 1) leg.varphi2

theorem jacobianCalc_derives (leg : FiveLink ℝ) (bent : leg.Bent)
    (off : leg.OffCut) : leg.JacobianDerives where
  first := leg.hasDerivAt_turnFirst bent off
  second := leg.hasDerivAt_turnSecond bent off

/-- Both cranks point down. -/
theorem base_upright : (posed 1 2 4 (Real.pi / 2) (Real.pi / 2)).pointB1 -
    (posed 1 2 4 (Real.pi / 2) (Real.pi / 2)).pointB2 = (2 : ℝ) := by
  apply Complex.ext
  · norm_num [posed, FiveLink.new, pointB1, pointB2]
  · norm_num [posed, FiveLink.new, pointB1, pointB2]

theorem bent_upright : (posed 1 2 4 (Real.pi / 2) (Real.pi / 2)).Bent := by
  let leg := posed 1 2 4 (Real.pi / 2) (Real.pi / 2)
  have length : ‖leg.pointB1 - leg.pointB2‖ = 2 := by
    rw [base_upright, Complex.norm_real]
    norm_num
  have apart : 0 < ‖leg.pointB1 - leg.pointB2‖ := length.symm ▸ two_pos
  have inside : ‖leg.pointB1 - leg.pointB2‖ < 2 * leg.lC := by
    rw [length]
    change (2 : ℝ) < 2 * 4
    norm_num
  exact ⟨(four_pos : (0 : ℝ) < 4), apart, inside⟩

theorem offCut_upright :
    (posed 1 2 4 (Real.pi / 2) (Real.pi / 2)).OffCut := by
  let leg := posed 1 2 4 (Real.pi / 2) (Real.pi / 2)
  have below : 0 ≤ (dyadLink leg.lC (2 : ℝ)).im := by
    rw [dyadLink, dyadAngle_eq, Complex.arg_ofReal_of_nonneg two_pos.le,
      sub_zero]
    exact mul_nonneg (four_pos : (0 : ℝ) < 4).le
      (Real.sin_nonneg_of_nonneg_of_le_pi (Real.arccos_nonneg _)
        (Real.arccos_le_pi _))
  have knee : leg.pointB1.im = 2 := by
    change 2 * Real.sin (Real.pi / 2) = 2
    rw [Real.sin_pi_div_two, mul_one]
  refine .inl ?_
  change 0 < leg.pointC.im
  rw [pointC_eq, base_upright, Complex.add_im, knee]
  exact add_pos_of_pos_of_nonneg two_pos below

theorem jacobianCalc_derives_upright :
    (posed 1 2 4 (Real.pi / 2) (Real.pi / 2)).JacobianDerives :=
  jacobianCalc_derives _ bent_upright offCut_upright

end

end RoboBand.Virtual.FiveLink
