import RoboBand.Dev.UnitreeBus
import RoboBand.Util.Pid
import Mathlib.Data.Fin.VecNotation

namespace RoboBand.App

open RoboBand.Data RoboBand.Dev RoboBand.Util

/-! `Aokee::devInit` on the main thread, while the thread of the serial port
hands frames to the motors between any two of its steps. -/

structure AokeeConfig where
  retractSpeed : ℚ
  motorStopSpeed : ℚ
  retractCtrlCycleMs : ℚ
  retractTimeMinMs : ℚ
  jointLimitAngle : ℚ

/-- The motors that `bindVirtualDev` puts behind `joint_motor`. -/
def jointMotor : Fin 4 → Fin 6 := ![2, 3, 5, 4]

/-- The motors of the last six lines of `devInit`, in their order. -/
def parked : List (Fin 6) := [0, 2, 3, 1, 5, 4]

inductive InitPoint where
  /-- The top of the control loop, `getSpeed` next. -/
  | command (joint : Fin 4)
  /-- The torque is computed, `setTorque` next. -/
  | send (joint : Fin 4) (torque : ℚ)
  | sleep
  /-- The stop test, `getSpeed` next. -/
  | check (joint : Fin 4) (stopped : Bool)
  | calibrate (joint : Fin 4)
  | park (rest : List (Fin 6))
  deriving DecidableEq

structure InitState where
  motors : Fin 6 → UnitreeMotor
  pidRetract : Fin 4 → Pid
  t : Int32
  point : InitPoint

inductive InitEvent where
  | frame (data : ℕ → Byte) (len : ℤ)
  | turn

def nextJoint (joint : Fin 4) : Option (Fin 4) :=
  if more : joint.val + 1 < 4 then some ⟨joint.val + 1, more⟩ else none

theorem nextJoint_eq_some {joint next : Fin 4}
    (more : nextJoint joint = some next) : next.val = joint.val + 1 := by
  unfold nextJoint at more
  split at more
  · cases more
    rfl
  · cases more

theorem nextJoint_eq_none {joint : Fin 4} (last : nextJoint joint = none) :
    joint.val = 3 := by
  unfold nextJoint at last
  split at last
  · cases last
  · omega

def aokeeMotors (memory : Fin 6 → Dev.Data Command) (dir : Fin 6 → ℤ) :
    Fin 6 → UnitreeMotor :=
  fun index => .new (memory index) (.ofNat 8 index.val) (dir index)

/-- A frame from the port, to which the motors registered in their order. -/
def hear (crc : List Byte → BitVec 16) (motors : Fin 6 → UnitreeMotor)
    (frame : (ℕ → Byte) × ℤ) : Fin 6 → UnitreeMotor :=
  receive crc (List.finRange 6) frame.1 frame.2 motors

/-- `devInit` begins on motors that the port has fed since it was run. -/
def devInitStart (motors : Fin 6 → UnitreeMotor) (pidRetract : Fin 4 → Pid) :
    InitState where
  motors := motors
  pidRetract := pidRetract
  t := 0
  point := .command 0

namespace InitState

/-- `t += RETRACT_CTRL_CYCLE_MS` with an `int`, back to the loop's top. -/
def again (config : AokeeConfig) (state : InitState) : InitState :=
  { state with
    t := toInt (state.t.toInt + config.retractCtrlCycleMs)
    point := .command 0 }

def stillStopped (config : AokeeConfig) (state : InitState) (joint : Fin 4)
    (stopped : Bool) : Bool :=
  let speed := (state.motors (jointMotor joint)).speed
  if config.motorStopSpeed < Util.abs speed then false else stopped

def afterCheck (config : AokeeConfig) (state : InitState) :
    Option (Fin 4) → Bool → InitState
  | some next, stopped => { state with point := .check next stopped }
  | none, true => { state with point := .calibrate 0 }
  | none, false => state.again config

theorem afterCheck_none (config : AokeeConfig) (state : InitState)
    (stopped : Bool) :
    state.afterCheck config none stopped =
      if stopped = true then { state with point := .calibrate 0 }
      else state.again config := by
  cases stopped <;> rfl

variable (config : AokeeConfig) (crc : List Byte → BitVec 16)

def setTorque (state : InitState) (index : Fin 6) (torque : ℚ)
    (point : InitPoint) : InitState × List (List Byte) :=
  let called := (state.motors index).setTorque crc torque
  ({ state with
      motors := Function.update state.motors index called.1
      point := point },
    [called.2])

def turn (state : InitState) : InitState × List (List Byte) :=
  match state.point with
  | .command joint =>
      let err := config.retractSpeed - (state.motors (jointMotor joint)).speed
      let streamed := streamRight err (state.pidRetract joint)
      ({ state with
          pidRetract := Function.update state.pidRetract joint streamed.1
          point := .send joint streamed.2.o }, [])
  | .send joint torque =>
      state.setTorque crc (jointMotor joint) torque
        (match nextJoint joint with
          | some next => .command next
          | none => .sleep)
  | .sleep =>
      if config.retractTimeMinMs < state.t.toInt then
        ({ state with point := .check 0 true }, [])
      else
        (state.again config, [])
  | .check joint stopped =>
      (state.afterCheck config (nextJoint joint)
        (state.stillStopped config joint stopped), [])
  | .calibrate joint =>
      let motor := state.motors (jointMotor joint)
      ({ state with
          motors := Function.update state.motors (jointMotor joint)
            (motor.setAngel config.jointLimitAngle)
          point := match nextJoint joint with
            | some next => .calibrate next
            | none => .park parked }, [])
  | .park [] => (state, [])
  | .park (index :: rest) => state.setTorque crc index 0 (.park rest)

def hear (state : InitState) (data : ℕ → Byte) (len : ℤ) : InitState :=
  { state with motors := App.hear crc state.motors (data, len) }

end InitState

/-- `devInit` and the port's thread, in any interleaving, with the frames that
`devInit` sends. -/
def devInit (config : AokeeConfig) (crc : List Byte → BitVec 16) :
    Machine InitState InitEvent (List Byte) where
  step state
    | .frame data len => (state.hear crc data len, [])
    | .turn => state.turn config crc

end RoboBand.App
