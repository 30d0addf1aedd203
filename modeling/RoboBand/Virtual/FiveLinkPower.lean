import RoboBand.Virtual.FiveLink
import Mathlib.LinearAlgebra.Matrix.DotProduct
import Mathlib.Tactic.FieldSimp
import Mathlib.Tactic.Linarith

namespace RoboBand.Virtual.FiveLink

open Matrix FloatMath

section Balance

variable {R : Type*} [Field R] [FloatMath R] (leg : FiveLink R)

def angles : Fin 2 → R := ![leg.motor1.getAngle, leg.motor2.getAngle]

def speeds : Fin 2 → R := ![leg.motor1.getSpeed, leg.motor2.getSpeed]

def PowerBalance (F_n tau_j : R) : Prop :=
  let updated := leg.update
  let torques := updated.setForce F_n tau_j
  torques.1 * leg.motor1.getSpeed + torques.2 * leg.motor2.getSpeed =
    F_n * updated.dotL + tau_j * updated.dotThetaL

omit [FloatMath R] in
theorem setForce_power (F_n tau_j : R) :
    (leg.setForce F_n tau_j).1 * leg.motor1.getSpeed +
        (leg.setForce F_n tau_j).2 * leg.motor2.getSpeed =
      ![F_n, tau_j] ⬝ᵥ (leg.jacobianTransᵀ *ᵥ leg.speeds) := by
  rw [mulVec_transpose, dotProduct_comm, ← dotProduct_mulVec, dotProduct_comm]
  simp [setForce, speeds, dotProduct, Fin.sum_univ_two]

/-- `update` sends the angles, not the speeds, through the matrix. -/
theorem update_task (F_n tau_j : R) :
    F_n * leg.update.dotL + tau_j * leg.update.dotThetaL =
      ![F_n, tau_j] ⬝ᵥ (leg.update.jacobianTrans *ᵥ leg.angles) := by
  simp only [dotProduct, Fin.sum_univ_two]
  rfl

/-- What the transposed matrix makes of the speeds beyond what `update` makes
of the angles. -/
def velocityGap : Fin 2 → R :=
  leg.update.jacobianTransᵀ *ᵥ leg.speeds -
    leg.update.jacobianTrans *ᵥ leg.angles

theorem powerBalance_iff_dotProduct (F_n tau_j : R) :
    leg.PowerBalance F_n tau_j ↔ ![F_n, tau_j] ⬝ᵥ leg.velocityGap = 0 := by
  rw [velocityGap, dotProduct_sub, sub_eq_zero, ← update_task]
  exact Eq.congr_left (leg.update.setForce_power F_n tau_j)

theorem powerBalance_iff :
    (∀ F_n tau_j, leg.PowerBalance F_n tau_j ↔
        ![F_n, tau_j] ⬝ᵥ leg.velocityGap = 0) ∧
      ((∀ F_n tau_j, leg.PowerBalance F_n tau_j) ↔
        leg.update.jacobianTransᵀ *ᵥ leg.speeds =
          leg.update.jacobianTrans *ᵥ leg.angles) := by
  refine ⟨leg.powerBalance_iff_dotProduct, ?_⟩
  simp only [powerBalance_iff_dotProduct]
  rw [← sub_eq_zero]
  change _ ↔ leg.velocityGap = 0
  constructor
  · intro balanced
    funext index
    fin_cases index
    · simpa [dotProduct, Fin.sum_univ_two] using balanced 1 0
    · simpa [dotProduct, Fin.sum_univ_two] using balanced 0 1
  · intro gap F_n tau_j
    rw [gap, dotProduct_zero]

end Balance

/-! With both motor angles at zero, this leg's point lies straight below. -/

section Pose

private noncomputable def folded (link : ℝ) : FiveLink ℝ :=
  new ![1, link, link] ⟨0, 1⟩ ⟨0, 0⟩ 0

private noncomputable def foldedAngle : ℝ := Real.pi / 3 - Real.pi

private theorem cos_foldedAngle : Real.cos foldedAngle = -(1 / 2) := by
  rw [foldedAngle, Real.cos_sub_pi, Real.cos_pi_div_three]

private theorem sin_foldedAngle :
    Real.sin foldedAngle = -(Real.sqrt 3 / 2) := by
  rw [foldedAngle, Real.sin_sub_pi, Real.sin_pi_div_three]

private theorem folded_varphiB1 : (folded 2).update.varphiB1 = foldedAngle := by
  have solved : (folded 2).update.varphiB1 =
      Real.arccos (Real.sqrt
        ((1 - 2 * Real.cos 0 - (-1 + 2 * Real.cos 0)) *
            (1 - 2 * Real.cos 0 - (-1 + 2 * Real.cos 0)) +
          (2 * Real.sin 0 - 2 * Real.sin 0) *
            (2 * Real.sin 0 - 2 * Real.sin 0)) / (2 * 2)) -
        atan2f (2 * Real.sin 0 - 2 * Real.sin 0)
          (1 - 2 * Real.cos 0 - (-1 + 2 * Real.cos 0)) := rfl
  have distance : Real.sqrt
      ((1 - 2 * 1 - (-1 + 2 * 1)) * (1 - 2 * 1 - (-1 + 2 * 1)) +
        (2 * 0 - 2 * 0) * (2 * 0 - 2 * 0)) / (2 * 2) =
      Real.cos (Real.pi / 3) := by
    rw [Real.cos_pi_div_three, show ((1 - 2 * 1 - (-1 + 2 * 1)) *
      (1 - 2 * 1 - (-1 + 2 * 1)) + (2 * 0 - 2 * 0) * (2 * 0 - 2 * 0) : ℝ) =
        2 ^ 2 by norm_num, Real.sqrt_sq zero_le_two]
    norm_num
  have direction : atan2f ((2 * 0 - 2 * 0 : ℝ)) (1 - 2 * 1 - (-1 + 2 * 1)) =
      Real.pi := by
    rw [mul_zero, sub_zero]
    exact atan2f_zero_of_neg (by norm_num)
  rw [solved, Real.cos_zero, Real.sin_zero, distance, direction,
    Real.arccos_cos (by positivity) (by linarith [Real.pi_pos]), foldedAngle]

private theorem folded_xC : (folded 2).update.xC = 0 := by
  have solved : (folded 2).update.xC =
      1 - 2 * Real.cos 0 - 2 * Real.cos (folded 2).update.varphiB1 := rfl
  rw [solved, folded_varphiB1, cos_foldedAngle, Real.cos_zero]
  norm_num

private theorem folded_yC : (folded 2).update.yC = -Real.sqrt 3 := by
  have solved : (folded 2).update.yC =
      2 * Real.sin 0 + 2 * Real.sin (folded 2).update.varphiB1 := rfl
  rw [solved, folded_varphiB1, sin_foldedAngle, Real.sin_zero]
  ring

private theorem sqrt_three_pos : 0 < Real.sqrt 3 :=
  Real.sqrt_pos.mpr zero_lt_three

private theorem folded_thetaL : (folded 2).update.thetaL = Real.pi := by
  have solved : (folded 2).update.thetaL =
      atan2f (folded 2).update.xC (folded 2).update.yC := rfl
  rw [solved, folded_xC, folded_yC]
  exact atan2f_zero_of_neg (neg_neg_of_pos sqrt_three_pos)

private theorem folded_varphiB2 :
    atan2f ((folded 2).update.yC - 2 * Real.sin 0)
      ((folded 2).update.xC - (-1 + 2 * Real.cos 0)) = foldedAngle := by
  have range : foldedAngle ∈ Set.Ioc (-Real.pi) Real.pi := by
    constructor <;> rw [foldedAngle] <;> linarith [Real.pi_pos]
  have polar := atan2f_polar two_pos range
  rw [sin_foldedAngle, cos_foldedAngle] at polar
  rw [folded_xC, folded_yC, Real.sin_zero, Real.cos_zero]
  convert polar using 2 <;> ring

private theorem folded_jacobianTrans :
    (folded 2).update.jacobianTrans 0 0 = -1 := by
  have solved : (folded 2).update.jacobianTrans 0 0 =
      -2 * Real.cos ((folded 2).update.thetaL +
          atan2f ((folded 2).update.yC - 2 * Real.sin 0)
            ((folded 2).update.xC - (-1 + 2 * Real.cos 0))) *
        Real.sin (0 - (folded 2).update.varphiB1) /
        Real.sin ((folded 2).update.varphiB1 +
          atan2f ((folded 2).update.yC - 2 * Real.sin 0)
            ((folded 2).update.xC - (-1 + 2 * Real.cos 0))) := rfl
  rw [solved, folded_varphiB2, folded_thetaL, folded_varphiB1, add_comm Real.pi,
    Real.cos_add_pi, zero_sub, Real.sin_neg, ← two_mul, Real.sin_two_mul,
    cos_foldedAngle, sin_foldedAngle]
  have nonzero := sqrt_three_pos.ne'
  field_simp

end Pose

/-- The force is turned into a torque of `-1` on a motor that runs at speed 1,
and `update` reports no velocity, both angles being zero. -/
theorem powerBalance_fails_at_zero_angles :
    ¬ (new ![1, 2, 2] ⟨0, 1⟩ ⟨0, 0⟩ 0 : FiveLink ℝ).PowerBalance 1 0 := by
  change ¬ (folded 2).PowerBalance 1 0
  intro balanced
  have speeds : (folded 2).speeds = ![1, 0] := rfl
  have angles : (folded 2).angles = 0 := by
    funext index
    fin_cases index <;> rfl
  have power : ![1, 0] ⬝ᵥ (folded 2).velocityGap =
      (folded 2).update.jacobianTrans 0 0 := by
    rw [velocityGap, speeds, angles, mulVec_zero, sub_zero]
    simp only [mulVec, dotProduct, Fin.sum_univ_two, transpose_apply,
      cons_val_zero, cons_val_one]
    ring
  rw [powerBalance_iff_dotProduct, power, folded_jacobianTrans] at balanced
  norm_num at balanced

end RoboBand.Virtual.FiveLink
