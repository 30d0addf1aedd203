import RoboBand.Ctrl.BalanceSys
import RoboBand.Data.Program

namespace RoboBand.Ctrl

open RoboBand.Data RoboBand.Util
open scoped RoboBand.Util.Index

/-! The loop of the balance controller as the program of a thread, with each
reading and each torque a call of the devices. -/

inductive BalanceMotor where
  | wheel (index : Fin 2)
  | joint (index : Fin 2)
  deriving DecidableEq

inductive BalanceCall where
  | getAngle (motor : BalanceMotor)
  | getSpeed (motor : BalanceMotor)
  | imuAngle (id : ImuId)
  | imuSpeed (id : ImuId)
  | setTorque (motor : BalanceMotor) (torque : ℚ)
  | plot (data : BalanceSys.PlotData)

/-- `setTorque` returns nothing, and what `send` returns is not used; what
stands for the answer of the first is what the actual motor is given. -/
def BalanceCall.Ret (Sent : Type) : BalanceCall → Type
  | .getAngle _ | .getSpeed _ | .imuAngle _ | .imuSpeed _ => ℚ
  | .setTorque _ _ => Sent
  | .plot _ => Unit

instance nonemptyBalanceRet {Sent : Type} [Nonempty Sent] :
    ∀ op, Nonempty (BalanceCall.Ret Sent op)
  | .getAngle _ => inferInstanceAs (Nonempty ℚ)
  | .getSpeed _ => inferInstanceAs (Nonempty ℚ)
  | .imuAngle _ => inferInstanceAs (Nonempty ℚ)
  | .imuSpeed _ => inferInstanceAs (Nonempty ℚ)
  | .setTorque _ _ => inferInstanceAs (Nonempty Sent)
  | .plot _ => inferInstanceAs (Nonempty Unit)

abbrev BalanceAct (Sent : Type) := Sigma (BalanceCall.Ret Sent)

abbrev BalanceProgram (Sent : Type) :=
  Program BalanceCall (BalanceCall.Ret Sent)

namespace BalanceSys

variable {Sent : Type}

section Body

def getAngle (motor : BalanceMotor) : BalanceProgram Sent ℚ :=
  Program.perform (BalanceCall.getAngle motor)

def getSpeed (motor : BalanceMotor) : BalanceProgram Sent ℚ :=
  Program.perform (BalanceCall.getSpeed motor)

def imuAngle (id : ImuId) : BalanceProgram Sent ℚ :=
  Program.perform (BalanceCall.imuAngle id)

def imuSpeed (id : ImuId) : BalanceProgram Sent ℚ :=
  Program.perform (BalanceCall.imuSpeed id)

def setTorque (motor : BalanceMotor) (torque : ℚ) :
    BalanceProgram Sent Unit := do
  let _ ← Program.perform (BalanceCall.setTorque motor torque)

/-- What the loop reads, in its order; it never reads the roll. -/
def sense : BalanceProgram Sent Sensors := do
  let wheelAngle1 ← getAngle (.wheel 0)
  let wheelAngle2 ← getAngle (.wheel 1)
  let wheelSpeed1 ← getSpeed (.wheel 0)
  let wheelSpeed2 ← getSpeed (.wheel 1)
  let phi ← imuAngle .yaw
  let dotPhi ← imuSpeed .yaw
  let thetaJ1 ← getAngle (.joint 0)
  let thetaJ2 ← getAngle (.joint 1)
  let dotThetaJ1 ← getSpeed (.joint 0)
  let dotThetaJ2 ← getSpeed (.joint 1)
  let thetaB ← imuAngle .pitch
  let dotThetaB ← imuSpeed .pitch
  pure {
    imu := ⟨fun | .yaw => phi | .pitch => thetaB | .roll => 0,
      fun | .yaw => dotPhi | .pitch => dotThetaB | .roll => 0⟩
    wheelMotor := ![⟨wheelAngle1, wheelSpeed1⟩, ⟨wheelAngle2, wheelSpeed2⟩]
    jointMotor := ![⟨thetaJ1, dotThetaJ1⟩, ⟨thetaJ2, dotThetaJ2⟩] }

def loopBody (config : BalanceConfig) : BalanceProgram Sent Unit := do
  let sensors ← sense
  let loop := ctrlLoop config sensors
  setTorque (.wheel 0) (loop.wheelTorque 0)
  setTorque (.wheel 1) (loop.wheelTorque 1)
  setTorque (.joint 0) (loop.jointTorque 0)
  setTorque (.joint 1) (loop.jointTorque 1)
  Program.perform (BalanceCall.plot loop.plot)

end Body

section Law

def senses (sensors : Sensors) : List (BalanceAct Sent) :=
  [⟨.getAngle (.wheel 0), (sensors.wheelMotor 0).angle⟩,
    ⟨.getAngle (.wheel 1), (sensors.wheelMotor 1).angle⟩,
    ⟨.getSpeed (.wheel 0), (sensors.wheelMotor 0).speed⟩,
    ⟨.getSpeed (.wheel 1), (sensors.wheelMotor 1).speed⟩,
    ⟨.imuAngle .yaw, sensors.imu.angle .yaw⟩,
    ⟨.imuSpeed .yaw, sensors.imu.speed .yaw⟩,
    ⟨.getAngle (.joint 0), (sensors.jointMotor 0).angle⟩,
    ⟨.getAngle (.joint 1), (sensors.jointMotor 1).angle⟩,
    ⟨.getSpeed (.joint 0), (sensors.jointMotor 0).speed⟩,
    ⟨.getSpeed (.joint 1), (sensors.jointMotor 1).speed⟩,
    ⟨.imuAngle .pitch, sensors.imu.angle .pitch⟩,
    ⟨.imuSpeed .pitch, sensors.imu.speed .pitch⟩]

def torque (loop : Loop) : BalanceMotor → ℚ
  | .wheel index => loop.wheelTorque index
  | .joint index => loop.jointTorque index

def torques (loop : Loop) (sent : BalanceMotor → Sent) :
    List (BalanceAct Sent) :=
  [.wheel 0, .wheel 1, .joint 0, .joint 1].map fun motor =>
    ⟨.setTorque motor (torque loop motor), sent motor⟩

/-- One round: the devices are read, and then the motors are set to what the
controller makes of that. -/
def Round (config : BalanceConfig) (acts : List (BalanceAct Sent)) : Prop :=
  ∃ (sensors : Sensors) (sent : BalanceMotor → Sent),
    acts = senses sensors ++ torques (ctrlLoop config sensors) sent ++
      [⟨.plot (ctrlLoop config sensors).plot, ()⟩]

end Law

end BalanceSys

end RoboBand.Ctrl
