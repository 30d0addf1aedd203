import RoboBand.Virtual.FiveLinkWork

namespace RoboBand.Virtual.FiveLink

open RoboBand.Data

/-! A leg and the leg whose motors stand the other way round: the one is the
mirror image of the other. -/

noncomputable section

/-- The point on the other side of the middle of the body. -/
def flip (point : ℂ) : ℂ := ⟨-point.re, point.im⟩

theorem normSq_flip (point : ℂ) :
    Complex.normSq (flip point) = Complex.normSq point := by
  rw [flip, Complex.normSq_mk, Complex.normSq_apply, neg_mul_neg]

theorem norm_flip (point : ℂ) : ‖flip point‖ = ‖point‖ := by
  rw [Complex.norm_def, Complex.norm_def, normSq_flip]

variable (leg : FiveLink ℝ)

def swapped : FiveLink ℝ := leg.pose leg.varphi2 leg.varphi1

section Foot

theorem pointB1_swapped : leg.swapped.pointB1 = flip leg.pointB2 := by
  apply Complex.ext
  · change leg.lA - leg.lB * Real.cos leg.varphi2 =
      -(-leg.lA + leg.lB * Real.cos leg.varphi2)
    ring
  · rfl

theorem pointB2_swapped : leg.swapped.pointB2 = flip leg.pointB1 := by
  apply Complex.ext
  · change -leg.lA + leg.lB * Real.cos leg.varphi1 =
      -(leg.lA - leg.lB * Real.cos leg.varphi1)
    ring
  · rfl

theorem base_swapped : leg.swapped.pointB1 - leg.swapped.pointB2 =
    flip (leg.pointB2 - leg.pointB1) := by
  rw [pointB1_swapped, pointB2_swapped]
  apply Complex.ext
  · simp only [flip, Complex.sub_re]
    ring
  · simp only [flip, Complex.sub_im]

theorem norm_base_swapped : ‖leg.swapped.pointB1 - leg.swapped.pointB2‖ =
    ‖leg.pointB1 - leg.pointB2‖ := by
  rw [base_swapped, norm_flip, norm_sub_rev]

variable {leg}

theorem Bent.swapped (bent : leg.Bent) : leg.swapped.Bent where
  positive := bent.positive
  apart := leg.norm_base_swapped ▸ bent.apart
  inside := leg.norm_base_swapped ▸ bent.inside

/-- The pin lies to the same side of both bases. -/
theorem pointC_swapped (bent : leg.Bent) :
    leg.swapped.pointC = flip leg.pointC := by
  have length : Complex.normSq (leg.swapped.pointB1 - leg.swapped.pointB2) =
      Complex.normSq (leg.pointB1 - leg.pointB2) := by
    rw [base_swapped, normSq_flip, ← neg_sub, Complex.normSq_neg]
  have swappedBent := bent.swapped
  rw [pointC_eq, pointC_eq,
    dyadLink_eq bent.positive (norm_pos_iff.mp bent.apart) bent.inside.le,
    dyadLink_eq swappedBent.positive (norm_pos_iff.mp swappedBent.apart)
      swappedBent.inside.le, length]
  change _ + _ * (_ + Real.sqrt (leg.lC ^ 2 / _ - 1 / 4) * Complex.I) = _
  generalize Real.sqrt (leg.lC ^ 2 /
    Complex.normSq (leg.pointB1 - leg.pointB2) - 1 / 4) = k
  rw [base_swapped, pointB1_swapped]
  apply Complex.ext
  · simp [flip]
    ring
  · simp [flip]
    ring

theorem l_swapped (bent : leg.Bent) :
    leg.swapped.forwardSolve.l = leg.forwardSolve.l := by
  rw [l_eq, l_eq, pointC_swapped bent, norm_flip]

theorem OffCut.swapped (off : leg.OffCut) (bent : leg.Bent) :
    leg.swapped.OffCut := by
  have foot := pointC_swapped bent
  have across : leg.swapped.forwardSolve.xC = -leg.forwardSolve.xC :=
    congrArg Complex.re foot
  have above : leg.swapped.forwardSolve.yC = leg.forwardSolve.yC :=
    congrArg Complex.im foot
  rw [OffCut, across, above, neg_ne_zero]
  exact off

theorem thetaL_swapped (bent : leg.Bent) (off : leg.OffCut) :
    leg.swapped.forwardSolve.thetaL = -leg.forwardSolve.thetaL := by
  have foot := pointC_swapped bent
  have slit : (⟨leg.forwardSolve.yC, leg.forwardSolve.xC⟩ : ℂ) ∈
      Complex.slitPlane := off
  have across : leg.swapped.forwardSolve.xC = -leg.forwardSolve.xC :=
    congrArg Complex.re foot
  have above : leg.swapped.forwardSolve.yC = leg.forwardSolve.yC :=
    congrArg Complex.im foot
  change Complex.arg ⟨leg.swapped.forwardSolve.yC,
    leg.swapped.forwardSolve.xC⟩ =
      -Complex.arg ⟨leg.forwardSolve.yC, leg.forwardSolve.xC⟩
  rw [above, across]
  have conj : (⟨leg.forwardSolve.yC, -leg.forwardSolve.xC⟩ : ℂ) =
      (starRingEnd ℂ) ⟨leg.forwardSolve.yC, leg.forwardSolve.xC⟩ := rfl
  rw [conj, Complex.arg_conj,
    if_neg (Complex.mem_slitPlane_iff_arg.mp slit).1]

end Foot

section Forces

variable {leg}

/-- Bent legs off the cut stay so while the second motor turns a little. -/
theorem eventually_turnSecond (bent : leg.Bent) (off : leg.OffCut) :
    ∀ᶠ angle in nhds leg.varphi2,
      (leg.turnSecond angle).Bent ∧ (leg.turnSecond angle).OffCut := by
  have knee := leg.hasDerivAt_pointB2
  have rests : HasDerivAt (fun angle => (leg.turnSecond angle).pointB1) 0
      leg.varphi2 := hasDerivAt_const leg.varphi2 leg.pointB1
  have base := (rests.sub knee).continuousAt.norm
  have foot := (hasDerivAt_pointC_second leg.turnSecond (fun _ => rfl) rests
    knee bent).continuousAt
  have above := Complex.continuous_im.continuousAt.comp foot
  have across := Complex.continuous_re.continuousAt.comp foot
  have stays : ∀ᶠ angle in nhds leg.varphi2,
      (leg.turnSecond angle).OffCut := by
    obtain front | beside := off
    · filter_upwards [above.eventually_const_lt front] with angle front
      exact .inl front
    · filter_upwards [across.eventually_ne beside] with angle beside
      exact .inr beside
  filter_upwards [base.eventually_const_lt bent.apart,
    base.eventually_lt_const bent.inside, stays] with angle apart inside off
  exact ⟨⟨bent.positive, apart, inside⟩, off⟩

/-- The first row of the one matrix is the second row of the other. -/
theorem row_swapped (bent : leg.Bent) (off : leg.OffCut) :
    let jacobian := leg.forwardSolve.jacobianCalc.jacobianTrans
    let other := leg.swapped.forwardSolve.jacobianCalc.jacobianTrans
    other 0 0 = jacobian 1 0 ∧ other 0 1 = -jacobian 1 1 := by
  intro jacobian other
  obtain ⟨length, angle⟩ := leg.hasDerivAt_turnSecond bent off
  obtain ⟨otherLength, otherAngle⟩ :=
    leg.swapped.hasDerivAt_turnFirst bent.swapped (off.swapped bent)
  have near := eventually_turnSecond bent off
  constructor
  · refine otherLength.unique (length.congr_of_eventuallyEq ?_)
    filter_upwards [near] with angle here
    exact l_swapped here.1
  · refine otherAngle.unique (angle.neg.congr_of_eventuallyEq ?_)
    filter_upwards [near] with angle here
    exact thetaL_swapped here.1 here.2

theorem jacobianTrans_swapped (bent : leg.Bent) (off : leg.OffCut) :
    let jacobian := leg.forwardSolve.jacobianCalc.jacobianTrans
    leg.swapped.forwardSolve.jacobianCalc.jacobianTrans =
      !![jacobian 1 0, -jacobian 1 1; jacobian 0 0, -jacobian 0 1] := by
  intro jacobian
  obtain ⟨first, second⟩ := row_swapped bent off
  obtain ⟨third, fourth⟩ := row_swapped bent.swapped (off.swapped bent)
  have last : leg.swapped.forwardSolve.jacobianCalc.jacobianTrans 1 1 =
      -jacobian 0 1 := neg_eq_iff_eq_neg.mp fourth.symm
  rw [Matrix.eta_fin_two leg.swapped.forwardSolve.jacobianCalc.jacobianTrans,
    first, second, ← third, last]
  rfl

/-- With the motors the other way round the leg is as long and leans the other
way, and it takes the same force along it, and the opposite torque about its
end, from the same torques of the motors. -/
theorem reading_swapped (leg : FiveLink ℝ) (motor1 motor2 : Motor ℝ)
    (bent : (leg.pose motor1.getAngle motor2.getAngle).Bent)
    (off : (leg.pose motor1.getAngle motor2.getAngle).OffCut) :
    let here := leg.reading motor1 motor2
    let other := leg.reading motor2 motor1
    other.l = here.l ∧ other.thetaL = -here.thetaL ∧
      ∀ F_n tau_j, other.setForce F_n (-tau_j) =
        (here.setForce F_n tau_j).swap := by
  intro here other
  refine ⟨l_swapped bent, thetaL_swapped bent off, fun F_n tau_j => ?_⟩
  have jacobian : here.jacobianTrans =
      (leg.pose motor1.getAngle
        motor2.getAngle).forwardSolve.jacobianCalc.jacobianTrans := rfl
  have otherJacobian : other.jacobianTrans =
      (leg.pose motor2.getAngle
        motor1.getAngle).forwardSolve.jacobianCalc.jacobianTrans := rfl
  have swapped : (leg.pose motor1.getAngle motor2.getAngle).swapped =
      leg.pose motor2.getAngle motor1.getAngle := rfl
  rw [setForce, setForce, otherJacobian, ← swapped,
    jacobianTrans_swapped bent off, ← jacobian]
  simp [Matrix.mulVec, dotProduct, Fin.sum_univ_two]

/-- The one crank points down, the other out to the side. -/
theorem base_sideways :
    (posed 1 2 4 (Real.pi / 2) Real.pi).pointB1 -
      (posed 1 2 4 (Real.pi / 2) Real.pi).pointB2 = ⟨4, 2⟩ := by
  apply Complex.ext
  · norm_num [posed, FiveLink.new, pointB1, pointB2]
  · norm_num [posed, FiveLink.new, pointB1, pointB2]

theorem normSq_sideways : Complex.normSq ⟨4, 2⟩ = 20 := by
  norm_num [Complex.normSq_mk]

theorem bent_sideways : (posed 1 2 4 (Real.pi / 2) Real.pi).Bent := by
  let leg := posed 1 2 4 (Real.pi / 2) Real.pi
  have length : ‖leg.pointB1 - leg.pointB2‖ = Real.sqrt 20 := by
    rw [base_sideways, Complex.norm_def, normSq_sideways]
  have apart : 0 < ‖leg.pointB1 - leg.pointB2‖ := by
    rw [length]
    positivity
  have inside : ‖leg.pointB1 - leg.pointB2‖ < 2 * leg.lC := by
    rw [length]
    change Real.sqrt 20 < 2 * 4
    rw [Real.sqrt_lt' (by norm_num)]
    norm_num
  exact ⟨(four_pos : (0 : ℝ) < 4), apart, inside⟩

theorem offCut_sideways : (posed 1 2 4 (Real.pi / 2) Real.pi).OffCut := by
  let leg := posed 1 2 4 (Real.pi / 2) Real.pi
  have bent : leg.Bent := bent_sideways
  have knee : leg.pointB1.im = 2 := by
    change 2 * Real.sin (Real.pi / 2) = 2
    rw [Real.sin_pi_div_two, mul_one]
  have below : -1 ≤ (dyadLink leg.lC ⟨4, 2⟩).im := by
    have apart := norm_pos_iff.mp bent.apart
    have inside := bent.inside.le
    rw [base_sideways] at apart inside
    rw [dyadLink_eq bent.positive apart inside]
    simp
  refine .inl ?_
  change 0 < leg.pointC.im
  rw [pointC_eq, base_sideways, Complex.add_im, knee]
  linarith

/-- One leg stretched to the left and the same leg stretched to the right. -/
theorem reading_swapped_sideways :
    let leg := posed 1 2 4 0 0
    let down : Motor ℝ := ⟨Real.pi / 2, 0⟩
    let out : Motor ℝ := ⟨Real.pi, 0⟩
    let here := leg.reading down out
    let other := leg.reading out down
    other.l = here.l ∧ other.thetaL = -here.thetaL ∧
      ∀ F_n tau_j, other.setForce F_n (-tau_j) =
        (here.setForce F_n tau_j).swap :=
  reading_swapped (posed 1 2 4 0 0) ⟨Real.pi / 2, 0⟩ ⟨Real.pi, 0⟩
    bent_sideways offCut_sideways

end Forces

end

end RoboBand.Virtual.FiveLink
