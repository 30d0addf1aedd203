import RoboBand.Data.Program
import RoboBand.Util.Math
import RoboBand.Util.Pid
import RoboBand.Virtual.FiveLink
import Mathlib.Logic.Equiv.Fin.Basic

namespace RoboBand.Ctrl

open RoboBand.Data RoboBand.Util RoboBand.Virtual Matrix
open scoped RoboBand.Util.Index

/-! The control loop of the chassis as the program of a thread, with each read
of an angle and each torque a call of the motors. -/

inductive ChassisMotor where
  | motor1 (leg : Fin 2)
  | motor2 (leg : Fin 2)
  | wheel (index : Fin 2)
  deriving DecidableEq

inductive MotorCall where
  | getAngle (motor : ChassisMotor)
  | setTorque (motor : ChassisMotor) (torque : ℚ)

/-- `setTorque` returns nothing; what stands for its answer is what the actual
motor sends. -/
def MotorCall.Ret (Sent : Type) : MotorCall → Type
  | .getAngle _ => ℚ
  | .setTorque _ _ => Sent

instance {Sent : Type} [Nonempty Sent] :
    ∀ op, Nonempty (MotorCall.Ret Sent op)
  | .getAngle _ => inferInstanceAs (Nonempty ℚ)
  | .setTorque _ _ => inferInstanceAs (Nonempty Sent)

abbrev MotorAct (Sent : Type) := Sigma (MotorCall.Ret Sent)

abbrev ChassisProgram (Sent : Type) := Program MotorCall (MotorCall.Ret Sent)

structure ChassisConfig where
  legParam : Fin 3 → ℚ
  fGravity : ℚ
  pidLParam : PidParam

structure WheelLeggedChassis where
  leg : Fin 2 → FiveLink ℚ
  fGravity : ℚ
  pidL : Pid

namespace WheelLeggedChassis

/-- The constructor; a motor that is not bound reads 0. -/
def new (config : ChassisConfig) (unset : Fin 2 → Matrix (Fin 2) (Fin 2) ℚ) :
    WheelLeggedChassis where
  leg side := .new config.legParam ⟨0, 0⟩ ⟨0, 0⟩ (unset side)
  fGravity := config.fGravity
  pidL := .new config.pidLParam

/-- Eigen takes the array column by column. -/
def trans : Matrix (Fin 2) (Fin 4) ℚ :=
  let array : Fin (2 * 4) → ℚ := ![1, 1, 1, -1, -1, 1, 1, 1]
  (Matrix.of fun row column => array (finProdFinEquiv (column, row)))ᵀ

section Body

variable {Sent : Type}

def getAngle (motor : ChassisMotor) : ChassisProgram Sent ℚ :=
  Program.perform (MotorCall.getAngle motor)

def streamTorque (torque : ℚ) (motor : ChassisMotor) :
    ChassisProgram Sent ℚ := do
  let _ ← Program.perform (MotorCall.setTorque motor torque)
  pure torque

def setForce (side : Fin 2) (leg : FiveLink ℚ) (F_n tau_j : ℚ) :
    ChassisProgram Sent Unit := do
  let forceActual := leg.setForce F_n tau_j
  let _ ← streamTorque forceActual.1 (.motor1 side)
  let _ ← streamTorque forceActual.2 (.motor2 side)

/-- The part of `ctrlLoop` that no motor takes part in: from the lengths of the
legs to the forces along them. -/
def forces (chassis : WheelLeggedChassis) :
    WheelLeggedChassis × (Fin 2 → ℚ) :=
  let F_phi := 0
  let F_inertial := 0
  let lSet := 1 / 4
  let err := lSet - 1 / 2 * ((chassis.leg 0).l + (chassis.leg 1).l)
  let streamed := streamRight err chassis.pidL
  let chassis := { chassis with pidL := streamed.1 }
  let F_l := streamed.2.o
  let F_ctrl := ![F_phi, F_l, chassis.fGravity, F_inertial]
  (chassis, trans *ᵥ F_ctrl)

variable [FloatMath ℚ]

def updateLeg (side : Fin 2) (leg : FiveLink ℚ) :
    ChassisProgram Sent (FiveLink ℚ) := do
  let varphi1 ← getAngle (.motor1 side)
  let varphi2 ← getAngle (.motor2 side)
  let leg := { leg with
    motor1 := { leg.motor1 with angle := varphi1 }
    motor2 := { leg.motor2 with angle := varphi2 } }
  pure leg.update

def ctrlLoop (chassis : WheelLeggedChassis) :
    ChassisProgram Sent WheelLeggedChassis := do
  let left ← updateLeg 0 (chassis.leg 0)
  let right ← updateLeg 1 (chassis.leg 1)
  let (chassis, F_n) := forces { chassis with leg := ![left, right] }
  setForce 0 (chassis.leg 0) (F_n 0) 0
  setForce 1 (chassis.leg 1) (F_n 1) 0
  let _ ← streamTorque 0 (.wheel 0)
  let _ ← streamTorque 0 (.wheel 1)
  pure chassis

end Body

/-! What the loop amounts to. -/

section Law

variable [FloatMath ℚ]

def legAt (link : Fin 3 → ℚ) (angles : Fin 2 → ℚ) : FiveLink ℚ :=
  (FiveLink.new link ⟨angles 0, 0⟩ ⟨angles 1, 0⟩ 0).update

/-- The force along both legs, on legs of these lengths. -/
def push (config : ChassisConfig) (left right : ℚ) : ℚ :=
  let param := config.pidLParam
  let err := 1 / 4 - 1 / 2 * (left + right)
  clamp param.maxOut (param.kp * err + clamp param.maxIout (param.ki * err) +
    param.kd * err) + config.fGravity

def commands (config : ChassisConfig) (angles : Fin 2 → Fin 2 → ℚ) :
    List (ChassisMotor × ℚ) :=
  let leg side := legAt config.legParam (angles side)
  let force := push config (leg 0).l (leg 1).l
  [(.motor1 0, (leg 0).jacobianTrans 0 0 * force),
    (.motor2 0, (leg 0).jacobianTrans 1 0 * force),
    (.motor1 1, (leg 1).jacobianTrans 0 0 * force),
    (.motor2 1, (leg 1).jacobianTrans 1 0 * force),
    (.wheel 0, 0), (.wheel 1, 0)]

variable {Sent : Type}

def reads (angles : Fin 2 → Fin 2 → ℚ) : List (MotorAct Sent) :=
  [⟨.getAngle (.motor1 0), angles 0 0⟩, ⟨.getAngle (.motor2 0), angles 0 1⟩,
    ⟨.getAngle (.motor1 1), angles 1 0⟩, ⟨.getAngle (.motor2 1), angles 1 1⟩]

def sends (command : ChassisMotor × ℚ) (sent : Sent) : MotorAct Sent :=
  ⟨.setTorque command.1 command.2, sent⟩

/-- One round: four angles are read, and then six torques are set that depend
on these angles alone. -/
def Round (config : ChassisConfig) (acts : List (MotorAct Sent)) : Prop :=
  ∃ (angles : Fin 2 → Fin 2 → ℚ) (sent : ChassisMotor → Sent),
    acts = reads angles ++
      (commands config angles).map fun command => sends command (sent command.1)

structure Links (link : Fin 3 → ℚ) (leg : FiveLink ℚ) : Prop where
  lA : leg.lA = link 0
  lB : leg.lB = link 1
  lC : leg.lC = link 2

/-- What no round changes. -/
structure Built (config : ChassisConfig) (chassis : WheelLeggedChassis) :
    Prop where
  links : ∀ side, Links config.legParam (chassis.leg side)
  fGravity : chassis.fGravity = config.fGravity
  pidL : chassis.pidL = .new config.pidLParam

end Law

section Body

theorem trans_eq : trans = !![1, 1, 1, -1; -1, 1, 1, 1] := by
  ext row column
  fin_cases row <;> fin_cases column <;> rfl

theorem trans_mulVec (F_l F_gravity : ℚ) :
    trans *ᵥ ![0, F_l, F_gravity, 0] = fun _ => F_l + F_gravity := by
  rw [trans_eq]
  ext side
  fin_cases side <;> simp [Matrix.vecHead, Matrix.vecTail]

theorem streamRight_new (param : PidParam) (err : ℚ) :
    (streamRight err (Pid.new param)).2.o =
      clamp param.maxOut (param.kp * err +
        clamp param.maxIout (param.ki * err) + param.kd * err) := by
  change ((Pid.new param).calc err).2 = _
  rw [Pid.calc_out]
  change clamp param.maxOut (_ + clamp param.maxIout (0 + _) +
    param.kd * (err - 0)) = _
  rw [zero_add, sub_zero]
  rfl

variable {config : ChassisConfig} {chassis : WheelLeggedChassis}

theorem forces_eq (fGravity : chassis.fGravity = config.fGravity)
    (pidL : chassis.pidL = .new config.pidLParam) :
    chassis.forces = (chassis,
      fun _ => push config (chassis.leg 0).l (chassis.leg 1).l) := by
  refine Prod.ext rfl ((trans_mulVec _ _).trans ?_)
  change (fun _ => (streamRight _ chassis.pidL).2.o + chassis.fGravity) = _
  rw [pidL, streamRight_new, fGravity, push]

theorem built_new (unset : Fin 2 → Matrix (Fin 2) (Fin 2) ℚ) :
    Built config (new config unset) where
  links _ := ⟨rfl, rfl, rfl⟩
  fGravity := rfl
  pidL := rfl

theorem streamTorque_ensures {Sent : Type} (torque : ℚ) (motor : ChassisMotor) :
    (streamTorque torque motor : ChassisProgram Sent ℚ).Ensures
      fun acts _ => ∃ sent, acts = [sends (motor, torque) sent] :=
  fun sent => ⟨sent, rfl⟩

theorem setForce_ensures {Sent : Type} (side : Fin 2) (leg : FiveLink ℚ)
    (F_n : ℚ) :
    (setForce side leg F_n 0 : ChassisProgram Sent Unit).Ensures
      fun acts _ => ∃ first second, acts =
        [sends (.motor1 side, leg.jacobianTrans 0 0 * F_n) first,
          sends (.motor2 side, leg.jacobianTrans 1 0 * F_n) second] := by
  have forces : leg.setForce F_n 0 =
      (leg.jacobianTrans 0 0 * F_n, leg.jacobianTrans 1 0 * F_n) := by
    simp [FiveLink.setForce, Matrix.mulVec, dotProduct, Fin.sum_univ_two]
  rw [setForce, forces]
  exact fun first second => ⟨first, second, rfl⟩

variable [FloatMath ℚ]

theorem updateLeg_ensures {Sent : Type} {link : Fin 3 → ℚ}
    {leg : FiveLink ℚ} (links : Links link leg) (side : Fin 2) :
    (updateLeg side leg : ChassisProgram Sent (FiveLink ℚ)).Ensures
      fun acts next => ∃ angles : Fin 2 → ℚ,
        acts = [⟨.getAngle (.motor1 side), angles 0⟩,
          ⟨.getAngle (.motor2 side), angles 1⟩] ∧
        Links link next ∧ next.l = (legAt link angles).l ∧
        next.jacobianTrans = (legAt link angles).jacobianTrans := by
  obtain ⟨lA, lB, lC⟩ := links
  intro first second
  refine ⟨![first, second], rfl, ⟨lA, lB, lC⟩, ?_⟩
  rw [legAt, FiveLink.new, ← lA, ← lB, ← lC]
  exact ⟨rfl, rfl⟩

theorem ctrlLoop_ensures {Sent : Type} (built : Built config chassis) :
    (ctrlLoop chassis : ChassisProgram Sent WheelLeggedChassis).Ensures
      fun acts next => Round config acts ∧ Built config next := by
  refine (updateLeg_ensures (built.links 0) 0).bind ?_
  rintro _ left ⟨leftAngles, rfl, leftLinks, leftLength, leftJacobian⟩
  refine (updateLeg_ensures (built.links 1) 1).bind ?_
  rintro _ right ⟨rightAngles, rfl, rightLinks, rightLength, rightJacobian⟩
  have solved : forces { chassis with leg := ![left, right] } =
      ({ chassis with leg := ![left, right] },
        fun _ => push config left.l right.l) :=
    forces_eq built.fGravity built.pidL
  rw [solved]
  refine (setForce_ensures 0 left _).bind ?_
  rintro _ _ ⟨first, second, rfl⟩
  refine (setForce_ensures 1 right _).bind ?_
  rintro _ _ ⟨third, fourth, rfl⟩
  refine (streamTorque_ensures 0 (.wheel 0)).bind ?_
  rintro _ _ ⟨fifth, rfl⟩
  refine (streamTorque_ensures 0 (.wheel 1)).bind ?_
  rintro _ _ ⟨sixth, rfl⟩
  refine ⟨⟨![leftAngles, rightAngles], fun
    | .motor1 leg => ![first, third] leg
    | .motor2 leg => ![second, fourth] leg
    | .wheel index => ![fifth, sixth] index, ?_⟩, ?_⟩
  · beta_reduce
    rw [leftLength, rightLength, leftJacobian, rightJacobian]
    rfl
  · exact {
      links := Fin.forall_fin_two.mpr ⟨leftLinks, rightLinks⟩
      fGravity := built.fGravity
      pidL := built.pidL }

end Body

end WheelLeggedChassis

end RoboBand.Ctrl
