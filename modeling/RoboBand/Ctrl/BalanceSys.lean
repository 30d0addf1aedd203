import RoboBand.Data.SignedPerm
import RoboBand.Util.Math
import Mathlib.Data.Fin.VecNotation
import Mathlib.Logic.Equiv.Fin.Basic
import Mathlib.Tactic.FinCases
import Mathlib.Tactic.NormNum

namespace RoboBand.Ctrl

open RoboBand.Data RoboBand.Util Matrix
open scoped RoboBand.Util.Index

/-! The balance controller, and the robot and its mirror image. -/

inductive ImuId where
  | roll
  | pitch
  | yaw
  deriving DecidableEq

structure ImuReading where
  angle : ImuId → ℚ
  speed : ImuId → ℚ

structure MotorReading where
  angle : ℚ
  speed : ℚ

structure Sensors where
  imu : ImuReading
  wheelMotor : Fin 2 → MotorReading
  jointMotor : Fin 2 → MotorReading

structure BalanceConfig where
  cycleMs : ℤ
  radiusWheel : ℚ
  sRefMax : ℚ
  phiRefMax : ℚ
  thetaLRefMax : ℚ
  thetaBRefMax : ℚ
  wheelTorqueMax : ℚ
  jointTorqueMax : ℚ
  k : Fin (4 * 10) → ℚ

/-- The place of row `r` and column `c` in the list of the configuration. -/
def place (r : Fin 4) (c : Fin 10) : Fin (4 * 10) :=
  ⟨10 * r.val + c.val, by omega⟩

/-- `Eigen::Matrix<float, 10, 4>` of an array, which is read by columns. -/
def columnMajor (data : Fin (4 * 10) → ℚ) : Matrix (Fin 10) (Fin 4) ℚ :=
  fun row column => data ⟨10 * column.val + row.val, by omega⟩

namespace BalanceSys

/-- The matrix `K` of the controller. -/
def gain (config : BalanceConfig) : Matrix (Fin 4) (Fin 10) ℚ :=
  (columnMajor config.k)ᵀ

/-- What is sent to the socket `plot`. -/
structure PlotData where
  id : ℤ
  t : ℚ
  d : Fin 9 → ℚ

structure Loop where
  stateSet : Fin 10 → ℚ
  stateRef : Fin 10 → ℚ
  ctrlVec : Fin 4 → ℚ
  wheelTorque : Fin 2 → ℚ
  jointTorque : Fin 2 → ℚ
  plot : PlotData

def stateRef (config : BalanceConfig) (sensors : Sensors) : Fin 10 → ℚ :=
  let s := ((sensors.wheelMotor 0).angle + (sensors.wheelMotor 1).angle) *
    config.radiusWheel / 2
  let dotS := ((sensors.wheelMotor 0).speed + (sensors.wheelMotor 1).speed) *
    config.radiusWheel / 2
  let phi := sensors.imu.angle .yaw
  let dotPhi := sensors.imu.speed .yaw
  let thetaJ1 := (sensors.jointMotor 0).angle
  let thetaJ2 := (sensors.jointMotor 1).angle
  let dotThetaJ1 := (sensors.jointMotor 0).speed
  let dotThetaJ2 := (sensors.jointMotor 1).speed
  let thetaB := sensors.imu.angle .pitch
  let dotThetaB := sensors.imu.speed .pitch
  let thetaL1 := thetaB + thetaJ1
  let thetaL2 := thetaB + thetaJ2
  let dotThetaL1 := dotThetaB + dotThetaJ1
  let dotThetaL2 := dotThetaB + dotThetaJ2
  ![absLimit s config.sRefMax, dotS,
    absLimit phi config.phiRefMax, dotPhi,
    absLimit thetaL1 config.thetaLRefMax, dotThetaL1,
    absLimit thetaL2 config.thetaLRefMax, dotThetaL2,
    absLimit thetaB config.thetaBRefMax, dotThetaB]

def ctrlLoop (config : BalanceConfig) (sensors : Sensors) : Loop :=
  let stateSet : Fin 10 → ℚ := ![0, 0, 0, 0, 0, 0, 0, 0, 0, 0]
  let stateRef := stateRef config sensors
  let ctrlVec := gain config *ᵥ (stateSet - stateRef)
  { stateSet := stateSet
    stateRef := stateRef
    ctrlVec := ctrlVec
    wheelTorque := ![absLimit (ctrlVec 0) config.wheelTorqueMax,
      absLimit (ctrlVec 1) config.wheelTorqueMax]
    jointTorque := ![absLimit (ctrlVec 2) config.jointTorqueMax,
      absLimit (ctrlVec 3) config.jointTorqueMax]
    plot :=
      { id := 1
        t := 0
        d := ![stateRef 0 * gain config 0 0, stateRef 2 * gain config 0 2,
          stateRef 4 * gain config 0 4, stateRef 6 * gain config 0 6,
          stateRef 8 * gain config 0 8, ctrlVec 0, ctrlVec 1, ctrlVec 2,
          ctrlVec 3] } }

end BalanceSys

def exchange : Fin 2 → Fin 2 := ![1, 0]

def turnYaw (values : ImuId → ℚ) : ImuId → ℚ
  | .yaw => -values .yaw
  | id => values id

/-- The robot seen in a mirror: left for right, and turned the other way. -/
def Sensors.mirror (sensors : Sensors) : Sensors where
  imu := ⟨turnYaw sensors.imu.angle, turnYaw sensors.imu.speed⟩
  wheelMotor := sensors.wheelMotor ∘ exchange
  jointMotor := sensors.jointMotor ∘ exchange

/-- The columns of the two legs change places. -/
def mirrorColumn : Fin 10 → Fin 10 := ![0, 1, 2, 3, 6, 7, 4, 5, 8, 9]

/-- The columns of the yaw change their sign. -/
def mirrorSign (column : Fin 10) : ℚ :=
  if column = 2 ∨ column = 3 then -1 else 1

structure MirroredGain (k : Fin (4 * 10) → ℚ) : Prop where
  wheels : ∀ c, k (place 0 c) = mirrorSign c * k (place 1 (mirrorColumn c))
  joints : ∀ c, k (place 2 c) = mirrorSign c * k (place 3 (mirrorColumn c))

def mirrorState : SignedPerm (Fin 10) ℚ where
  perm := mirrorColumn
  sign := mirrorSign
  square := fun c => by
    unfold mirrorSign
    split <;> norm_num
  involutive := by
    change ∀ c, mirrorColumn (mirrorColumn c) = c
    decide
  sign_perm := fun c => by
    refine if_congr ?_ rfl rfl
    revert c
    decide

namespace BalanceSys

theorem gain_apply (config : BalanceConfig) (r : Fin 4) (c : Fin 10) :
    gain config r c = config.k (place r c) := rfl

def mirrorRow : Fin 4 → Fin 4 := ![1, 0, 3, 2]

theorem gain_mirrorRow {config : BalanceConfig}
    (mirrored : MirroredGain config.k) (r : Fin 4) :
    gain config (mirrorRow r) = mirrorState.act (gain config r) := by
  have wheels : gain config 0 = mirrorState.act (gain config 1) := by
    funext c
    rw [gain_apply, mirrored.wheels]
    rfl
  have joints : gain config 2 = mirrorState.act (gain config 3) := by
    funext c
    rw [gain_apply, mirrored.joints]
    rfl
  fin_cases r
  · change gain config 1 = mirrorState.act (gain config 0)
    rw [wheels, mirrorState.act_act]
  · exact wheels
  · change gain config 3 = mirrorState.act (gain config 2)
    rw [joints, mirrorState.act_act]
  · exact joints

theorem act_mirrorState (s dotS phi dotPhi thetaL1 dotThetaL1 thetaL2 dotThetaL2
    thetaB dotThetaB : ℚ) :
    mirrorState.act ![s, dotS, phi, dotPhi, thetaL1, dotThetaL1, thetaL2,
        dotThetaL2, thetaB, dotThetaB] =
      ![s, dotS, -phi, -dotPhi, thetaL2, dotThetaL2, thetaL1, dotThetaL1,
        thetaB, dotThetaB] := by
  funext c
  fin_cases c <;> simp [SignedPerm.act, mirrorState, mirrorSign, mirrorColumn]

theorem stateRef_mirror {config : BalanceConfig}
    (limit : 0 ≤ config.phiRefMax) (sensors : Sensors) :
    stateRef config sensors.mirror =
      mirrorState.act (stateRef config sensors) := by
  have angles : (sensors.mirror.wheelMotor 0).angle +
      (sensors.mirror.wheelMotor 1).angle =
      (sensors.wheelMotor 0).angle + (sensors.wheelMotor 1).angle :=
    add_comm _ _
  have speeds : (sensors.mirror.wheelMotor 0).speed +
      (sensors.mirror.wheelMotor 1).speed =
      (sensors.wheelMotor 0).speed + (sensors.wheelMotor 1).speed :=
    add_comm _ _
  have phi : absLimit (sensors.mirror.imu.angle .yaw) config.phiRefMax =
      -absLimit (sensors.imu.angle .yaw) config.phiRefMax :=
    absLimit_neg limit _
  simp only [stateRef, act_mirrorState, angles, speeds, phi]
  rfl

theorem ctrlVec_mirror {config : BalanceConfig}
    (limit : 0 ≤ config.phiRefMax) (mirrored : MirroredGain config.k)
    (sensors : Sensors) (r : Fin 4) :
    (ctrlLoop config sensors.mirror).ctrlVec (mirrorRow r) =
      (ctrlLoop config sensors).ctrlVec r := by
  have still : (ctrlLoop config sensors).stateSet = 0 := by
    funext c
    fin_cases c <;> rfl
  have deviation : (ctrlLoop config sensors.mirror).stateSet -
      stateRef config sensors.mirror =
        mirrorState.act ((ctrlLoop config sensors).stateSet -
          stateRef config sensors) := by
    rw [mirrorState.act_sub, still, mirrorState.act_zero,
      stateRef_mirror limit]
    exact congrArg (· - _) still
  have turned := mirrorState.mulVec_act (gain_mirrorRow mirrored)
    ((ctrlLoop config sensors).stateSet - stateRef config sensors) r
  rw [← deviation] at turned
  exact turned

/-- The mirrored robot is driven by the mirrored torques. -/
theorem ctrlLoop_mirror (config : BalanceConfig)
    (limit : 0 ≤ config.phiRefMax) (mirrored : MirroredGain config.k)
    (sensors : Sensors) :
    (ctrlLoop config sensors.mirror).wheelTorque =
        (ctrlLoop config sensors).wheelTorque ∘ exchange ∧
      (ctrlLoop config sensors.mirror).jointTorque =
        (ctrlLoop config sensors).jointTorque ∘ exchange := by
  have rows := ctrlVec_mirror limit mirrored sensors
  constructor
  · funext wheel
    match wheel with
    | 0 => exact congrArg (absLimit · config.wheelTorqueMax) (rows 1)
    | 1 => exact congrArg (absLimit · config.wheelTorqueMax) (rows 0)
  · funext joint
    match joint with
    | 0 => exact congrArg (absLimit · config.jointTorqueMax) (rows 3)
    | 1 => exact congrArg (absLimit · config.jointTorqueMax) (rows 2)

/-- The values of the simulated robot, its gain in units of a ten thousandth. -/
def lqrSim : BalanceConfig where
  cycleMs := 1
  radiusWheel := 3 / 40
  sRefMax := 1
  phiRefMax := 1 / 5
  thetaLRefMax := 7 / 10
  thetaBRefMax := 1 / 5
  wheelTorqueMax := 6
  jointTorqueMax := 20
  k := fun index => (![
    -82416, -59268, -43381, -9327, -94843, -14829, -70825, -11934,
    -107694, -9750,
    -82416, -59268, 43381, 9327, -70825, -11934, -94843, -14829,
    -107694, -9750,
    177286, 119901, -212067, -42722, 407170, 43707, -133936, 2309,
    -2757717, -65053,
    177286, 119901, 212067, 42722, -133936, 2309, 407170, 43707,
    -2757717, -65053] : Fin (4 * 10) → ℚ) index / 10000

theorem mirroredGain_lqrSim : MirroredGain lqrSim.k where
  wheels := by decide +kernel
  joints := by decide +kernel

/-- One leg is ahead, and the robot turns. -/
def turning : Sensors where
  imu := ⟨fun | .roll => 0 | .pitch => 1 / 100 | .yaw => 1 / 10,
    fun | .roll => 0 | .pitch => 0 | .yaw => 1⟩
  wheelMotor := ![⟨1, 2⟩, ⟨3, 4⟩]
  jointMotor := ![⟨1 / 10, 0⟩, ⟨0, 0⟩]

theorem ctrlLoop_mirror_turning :
    (ctrlLoop lqrSim turning.mirror).wheelTorque =
        (ctrlLoop lqrSim turning).wheelTorque ∘ exchange ∧
      (ctrlLoop lqrSim turning.mirror).jointTorque =
        (ctrlLoop lqrSim turning).jointTorque ∘ exchange :=
  ctrlLoop_mirror lqrSim (by norm_num [lqrSim]) mirroredGain_lqrSim turning

end BalanceSys

end RoboBand.Ctrl
