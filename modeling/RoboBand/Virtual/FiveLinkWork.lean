import RoboBand.Virtual.FiveLinkJacobian
import Mathlib.Tactic.LinearCombination

namespace RoboBand.Virtual.FiveLink

open RoboBand.Data

/-! The work that the torques of `setForce` do while both motors turn, in
whatever way they do. -/

noncomputable section

theorem dot_zero (arm : ℂ) : dot arm 0 = 0 := by
  rw [dot, Complex.zero_re, Complex.zero_im, mul_zero, mul_zero, add_zero]

theorem eq_zero_of_dots {arm link velocity : ℂ}
    (aroundArm : dot arm velocity = 0) (aroundLink : dot link velocity = 0)
    (bent : cross arm link ≠ 0) : velocity = 0 := by
  rw [← sub_zero velocity] at aroundLink
  have still := eq_turning aroundArm aroundLink bent
  rw [still, dot_zero, zero_div, turning, zero_mul, zero_mul, neg_zero]
  rfl

theorem dot_sub (arm first second : ℂ) :
    dot arm (first - second) = dot arm first - dot arm second := by
  rw [dot, dot, dot, Complex.sub_re, Complex.sub_im]
  ring

theorem dot_add (arm first second : ℂ) :
    dot arm (first + second) = dot arm first + dot arm second := by
  rw [dot, dot, dot, Complex.add_re, Complex.add_im]
  ring

theorem dot_smul (arm velocity : ℂ) (rate : ℝ) :
    dot arm (rate • velocity) = rate * dot arm velocity := by
  rw [dot, dot, Complex.smul_re, Complex.smul_im, smul_eq_mul, smul_eq_mul]
  ring

theorem Bent.cross_ne_zero {leg : FiveLink ℝ} (bent : leg.Bent) :
    cross (leg.pointC - leg.pointB2) (leg.pointC - leg.pointB1) ≠ 0 := by
  rw [leg.cross_couplers bent.positive bent.inside.le]
  exact mul_ne_zero (pow_ne_zero 2 bent.positive.ne') bent.sinSum_ne_zero

/-- A velocity of the foot that leaves both couplers their length while the
knees move at these velocities. -/
structure Pinned (leg : FiveLink ℝ) (knee1 knee2 foot : ℂ) : Prop where
  first : dot (leg.pointC - leg.pointB1) foot =
    dot (leg.pointC - leg.pointB1) knee1
  second : dot (leg.pointC - leg.pointB2) foot =
    dot (leg.pointC - leg.pointB2) knee2

section Pinned

variable {leg : FiveLink ℝ} {knee1 knee2 foot foot1 foot2 : ℂ}

theorem Pinned.unique (bent : leg.Bent) (pinned : leg.Pinned knee1 knee2 foot1)
    (other : leg.Pinned knee1 knee2 foot2) : foot1 = foot2 := by
  refine sub_eq_zero.mp (eq_zero_of_dots ?_ ?_ bent.cross_ne_zero)
  · rw [dot_sub, pinned.second, other.second, sub_self]
  · rw [dot_sub, pinned.first, other.first, sub_self]

/-- Each knee has its share in the velocity of the foot. -/
theorem Pinned.combine (alone1 : leg.Pinned knee1 0 foot1)
    (alone2 : leg.Pinned 0 knee2 foot2) (rate1 rate2 : ℝ) :
    leg.Pinned (rate1 • knee1) (rate2 • knee2)
      (rate1 • foot1 + rate2 • foot2) where
  first := by
    rw [dot_add, dot_smul, dot_smul, dot_smul, alone1.first, alone2.first,
      dot_zero, mul_zero, add_zero]
  second := by
    rw [dot_add, dot_smul, dot_smul, dot_smul, alone1.second, alone2.second,
      dot_zero, mul_zero, zero_add]

theorem pinned_of_motion {path : ℝ → FiveLink ℝ} {t : ℝ}
    (couplers : ∀ s, (path s).lC = (path t).lC)
    (first : HasDerivAt (fun s => (path s).pointB1) knee1 t)
    (second : HasDerivAt (fun s => (path s).pointB2) knee2 t)
    (moves : HasDerivAt (fun s => (path s).pointC) foot t)
    (bent : (path t).Bent) : (path t).Pinned knee1 knee2 foot := by
  have keeps := eventually_norm_eq couplers (first.sub second) bent
  have aroundFirst := dot_eq_zero_of_norm_eq (moves.sub first)
    (keeps.mono fun _ => And.left)
  have aroundSecond := dot_eq_zero_of_norm_eq (moves.sub second)
    (keeps.mono fun _ => And.right)
  rw [dot_sub, sub_eq_zero] at aroundFirst aroundSecond
  exact ⟨aroundFirst, aroundSecond⟩

end Pinned

section Foot

/-- The leg with the motors at these angles. -/
def pose (leg : FiveLink ℝ) (varphi1 varphi2 : ℝ) : FiveLink ℝ :=
  { leg with varphi1 := varphi1, varphi2 := varphi2 }

variable {leg : FiveLink ℝ} {varphi1 varphi2 : ℝ → ℝ} {rate1 rate2 t : ℝ}

/-- The foot moves as it would for each motor alone, both together. -/
theorem hasDerivAt_pose_pointC (turns1 : HasDerivAt varphi1 rate1 t)
    (turns2 : HasDerivAt varphi2 rate2 t)
    (bent : (leg.pose (varphi1 t) (varphi2 t)).Bent) :
    let here := leg.pose (varphi1 t) (varphi2 t)
    ∃ foot1 foot2 : ℂ,
      HasDerivAt (fun angle => (here.turnFirst angle).pointC) foot1
        here.varphi1 ∧
      HasDerivAt (fun angle => (here.turnSecond angle).pointC) foot2
        here.varphi2 ∧
      HasDerivAt (fun s => (leg.pose (varphi1 s) (varphi2 s)).pointC)
        (rate1 • foot1 + rate2 • foot2) t := by
  intro here
  have rests1 : HasDerivAt (fun angle => (here.turnSecond angle).pointB1) 0
      here.varphi2 := hasDerivAt_const here.varphi2 here.pointB1
  have rests2 : HasDerivAt (fun angle => (here.turnFirst angle).pointB2) 0
      here.varphi1 := hasDerivAt_const here.varphi1 here.pointB2
  have knee1 := here.hasDerivAt_pointB1
  have knee2 := here.hasDerivAt_pointB2
  have foot1 := hasDerivAt_pointC_first here.turnFirst (fun _ => rfl) knee1
    rests2 bent
  have foot2 := hasDerivAt_pointC_second here.turnSecond (fun _ => rfl) rests1
    knee2 bent
  have moves1 : HasDerivAt
      (fun s => (leg.pose (varphi1 s) (varphi2 s)).pointB1) _ t :=
    knee1.scomp t turns1
  have moves2 : HasDerivAt
      (fun s => (leg.pose (varphi1 s) (varphi2 s)).pointB2) _ t :=
    knee2.scomp t turns2
  have moves := (differentiableAt_pointC (fun _ => rfl) (moves1.sub moves2)
    moves1 bent).hasDerivAt
  have alone1 : here.Pinned _ 0 _ :=
    pinned_of_motion (fun _ => rfl) knee1 rests2 foot1 bent
  have alone2 : here.Pinned 0 _ _ :=
    pinned_of_motion (fun _ => rfl) rests1 knee2 foot2 bent
  have together : here.Pinned _ _ _ :=
    pinned_of_motion (fun _ => rfl) moves1 moves2 moves bent
  exact ⟨_, _, foot1, foot2, moves.congr_deriv
    (together.unique bent (alone1.combine alone2 rate1 rate2))⟩

/-- However both motors turn, the rows of the matrix say how the leg's length
and angle change. -/
theorem hasDerivAt_pose (turns1 : HasDerivAt varphi1 rate1 t)
    (turns2 : HasDerivAt varphi2 rate2 t)
    (bent : (leg.pose (varphi1 t) (varphi2 t)).Bent)
    (off : (leg.pose (varphi1 t) (varphi2 t)).OffCut) :
    let here := leg.pose (varphi1 t) (varphi2 t)
    let jacobian := here.forwardSolve.jacobianCalc.jacobianTrans
    HasDerivAt (fun s => (leg.pose (varphi1 s) (varphi2 s)).forwardSolve.l)
        (rate1 * jacobian 0 0 + rate2 * jacobian 1 0) t ∧
      HasDerivAt
        (fun s => (leg.pose (varphi1 s) (varphi2 s)).forwardSolve.thetaL)
        (rate1 * jacobian 0 1 + rate2 * jacobian 1 1) t := by
  intro here jacobian
  have extended : here.forwardSolve.l ≠ 0 := off.l_ne_zero
  obtain ⟨foot1, foot2, alone1, alone2, together⟩ :=
    hasDerivAt_pose_pointC turns1 turns2 bent
  obtain ⟨length1, angle1⟩ := here.hasDerivAt_turnFirst bent off
  obtain ⟨length2, angle2⟩ := here.hasDerivAt_turnSecond bent off
  have lengthRow1 : jacobian 0 0 = _ :=
    length1.unique (hasDerivAt_l alone1 extended)
  have lengthRow2 : jacobian 1 0 = _ :=
    length2.unique (hasDerivAt_l alone2 extended)
  have angleRow1 : jacobian 0 1 = _ :=
    angle1.unique (hasDerivAt_thetaL alone1 off)
  have angleRow2 : jacobian 1 1 = _ :=
    angle2.unique (hasDerivAt_thetaL alone2 off)
  constructor
  · refine (hasDerivAt_l together extended).congr_deriv ?_
    rw [lengthRow1, lengthRow2, Complex.add_re, Complex.add_im,
      Complex.smul_re, Complex.smul_re, Complex.smul_im, Complex.smul_im]
    simp only [smul_eq_mul]
    change Real.sin here.forwardSolve.thetaL * _ +
      Real.cos here.forwardSolve.thetaL * _ =
        rate1 * (Real.sin here.forwardSolve.thetaL * _ +
          Real.cos here.forwardSolve.thetaL * _) +
        rate2 * (Real.sin here.forwardSolve.thetaL * _ +
          Real.cos here.forwardSolve.thetaL * _)
    ring
  · refine (hasDerivAt_thetaL together off).congr_deriv ?_
    rw [angleRow1, angleRow2, Complex.add_re, Complex.add_im,
      Complex.smul_re, Complex.smul_re, Complex.smul_im, Complex.smul_im]
    simp only [smul_eq_mul]
    change (Real.cos here.forwardSolve.thetaL * _ -
      Real.sin here.forwardSolve.thetaL * _) / here.forwardSolve.l =
        rate1 * ((Real.cos here.forwardSolve.thetaL * _ -
          Real.sin here.forwardSolve.thetaL * _) / here.forwardSolve.l) +
        rate2 * ((Real.cos here.forwardSolve.thetaL * _ -
          Real.sin here.forwardSolve.thetaL * _) / here.forwardSolve.l)
    ring

end Foot

section Work

/-- The leg once `update` has read the motors. -/
def reading (leg : FiveLink ℝ) (motor1 motor2 : Motor ℝ) : FiveLink ℝ :=
  { leg with motor1 := motor1, motor2 := motor2 }.update

/-- Whatever the motors do, the torques that `setForce` sends do the work of
the force along the leg and of the torque about its end. -/
theorem setForce_does_work (leg : FiveLink ℝ) {motor1 motor2 : ℝ → Motor ℝ}
    {t : ℝ}
    (turns1 : HasDerivAt (fun s => (motor1 s).getAngle) (motor1 t).getSpeed t)
    (turns2 : HasDerivAt (fun s => (motor2 s).getAngle) (motor2 t).getSpeed t)
    (bent : (leg.pose (motor1 t).getAngle (motor2 t).getAngle).Bent)
    (off : (leg.pose (motor1 t).getAngle (motor2 t).getAngle).OffCut)
    (F_n tau_j : ℝ) :
    let torques := (leg.reading (motor1 t) (motor2 t)).setForce F_n tau_j
    HasDerivAt
      (fun s => F_n * (leg.reading (motor1 s) (motor2 s)).l +
        tau_j * (leg.reading (motor1 s) (motor2 s)).thetaL)
      (torques.1 * (motor1 t).getSpeed + torques.2 * (motor2 t).getSpeed)
      t := by
  intro torques
  obtain ⟨length, angle⟩ := hasDerivAt_pose turns1 turns2 bent off
  refine ((length.const_mul F_n).add (angle.const_mul tau_j)).congr_deriv ?_
  have sent : torques =
      ((leg.reading (motor1 t) (motor2 t)).jacobianTrans 0 0 * F_n +
          (leg.reading (motor1 t) (motor2 t)).jacobianTrans 0 1 * tau_j,
        (leg.reading (motor1 t) (motor2 t)).jacobianTrans 1 0 * F_n +
          (leg.reading (motor1 t) (motor2 t)).jacobianTrans 1 1 * tau_j) := by
    simp [torques, setForce, Matrix.mulVec, dotProduct, Fin.sum_univ_two]
  have same : (leg.reading (motor1 t) (motor2 t)).jacobianTrans =
      (leg.pose (motor1 t).getAngle
        (motor2 t).getAngle).forwardSolve.jacobianCalc.jacobianTrans := rfl
  rw [sent, same]
  ring

/-- One motor turns through the upright pose while the other rests there. -/
theorem setForce_does_work_upright :
    let leg := posed 1 2 4 0 0
    let motor1 := fun s : ℝ => (⟨Real.pi / 2 + s, 1⟩ : Motor ℝ)
    let motor2 : Motor ℝ := ⟨Real.pi / 2, 0⟩
    let torques := (leg.reading (motor1 0) motor2).setForce 10 1
    HasDerivAt
      (fun s => 10 * (leg.reading (motor1 s) motor2).l +
        1 * (leg.reading (motor1 s) motor2).thetaL)
      (torques.1 * 1 + torques.2 * 0) 0 := by
  intro leg motor1 motor2 torques
  have turns : HasDerivAt (fun s => (motor1 s).getAngle) (motor1 0).getSpeed
      0 := (hasDerivAt_id (0 : ℝ)).const_add (Real.pi / 2)
  have rests : HasDerivAt (fun _ : ℝ => motor2.getAngle) motor2.getSpeed 0 :=
    hasDerivAt_const _ _
  have here : leg.pose (motor1 0).getAngle motor2.getAngle =
      posed 1 2 4 (Real.pi / 2) (Real.pi / 2) := by
    have start : Real.pi / 2 + 0 = Real.pi / 2 := add_zero _
    change leg.pose (Real.pi / 2 + 0) (Real.pi / 2) = _
    rw [start]
    rfl
  exact setForce_does_work leg turns rests (here ▸ bent_upright)
    (here ▸ offCut_upright) 10 1

end Work

end

end RoboBand.Virtual.FiveLink
