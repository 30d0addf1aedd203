import RoboBand.App.AokeeBoard
import RoboBand.Ctrl.WheelLeggedChassis

namespace RoboBand.App

open RoboBand.Data RoboBand.Ctrl RoboBand.Dev RoboBand.Util RoboBand.Virtual
open WheelLeggedChassis
open scoped RoboBand.Util.Index

/-! The chassis on the motors of the robot: its loop runs on one thread while
the thread of the port hands over what `read` returns. -/

/-- `Aokee::bindVirtualDev`. -/
def bindVirtualDev : ChassisMotor → Fin 6
  | .wheel index => ![0, 1] index
  | .motor1 leg => ![2, 5] leg
  | .motor2 leg => ![3, 4] leg

def robotMotors (crc : List Byte → BitVec 16) :
    World MotorCall (MotorCall.Ret (List Byte)) (Fin 6 → UnitreeMotor)
      Io.Received where
  happen motors received :=
    hear crc motors ((received.data.getD · 0), received.ret)
  answer motors
    | .getAngle motor => (motors, (motors (bindVirtualDev motor)).angle)
    | .setTorque motor torque =>
        let index := bindVirtualDev motor
        let called := (motors index).setTorque crc torque
        (Function.update motors index called.1, called.2)

section Control

variable [FloatMath ℚ]

/-- The loop of the chassis, in any interleaving with the thread of the port,
with what it calls. -/
def control (crc : List Byte → BitVec 16) :
    Machine
      ((Fin 6 → UnitreeMotor) × ChassisProgram (List Byte) WheelLeggedChassis)
      (ThreadEvent Io.Received) (MotorAct (List Byte)) :=
  (robotMotors crc).loop ctrlLoop

/-- However the loop and the port are interleaved, the loop goes through whole
rounds: each reads the four joints and sets the six motors, in one order, to
torques that nothing but these four angles decides. -/
theorem control_rounds (crc : List Byte → BitVec 16) (config : ChassisConfig)
    (unset : Fin 2 → Matrix (Fin 2) (Fin 2) ℚ)
    (motors : Fin 6 → UnitreeMotor) (events : List (ThreadEvent Io.Received)) :
    ∃ rounds : List (List (MotorAct (List Byte))),
      (∀ acts ∈ rounds, Round config acts) ∧
      (control crc).outputs (motors, ctrlLoop (new config unset)) events <+:
        rounds.flatten :=
  World.loop_outputs (fun _ built => ctrlLoop_ensures built) (built_new unset)
    motors events

end Control

section Frames

/-- A frame is for the motor that is bound.  It carries the torque that was
set, and none if that is what the motor's error in the frames heard asks
for. -/
def Addressed (crc : List Byte → BitVec 16) (dir : Fin 6 → ℤ)
    (heard : List ((ℕ → Byte) × ℤ)) : MotorAct (List Byte) → Prop
  | ⟨.getAngle _, _⟩ => True
  | ⟨.setTorque motor torque, frame⟩ =>
      let index := bindVirtualDev motor
      SentTo index frame ∧
        if UnitreeMotor.lastError crc (.ofNat 8 index.val) heard = .normal then
          UnitreeMotor.Quantised
            (UnitreeMotor.computedTorque (dir index) torque)
            (torqueOf frame).toInt
        else torqueOf frame = 0

variable {crc : List Byte → BitVec 16} {dir : Fin 6 → ℤ}
  {motors : Fin 6 → UnitreeMotor} {heard : List ((ℕ → Byte) × ℤ)}

theorem Board.answers (kept : Board dir motors)
    (warned : Warned crc heard motors) (op : MotorCall) :
    (Board dir ((robotMotors crc).answer motors op).1 ∧
        Warned crc heard ((robotMotors crc).answer motors op).1) ∧
      Addressed crc dir heard ⟨op, ((robotMotors crc).answer motors op).2⟩ := by
  cases op with
  | getAngle motor => exact ⟨⟨kept, warned⟩, trivial⟩
  | setTorque motor torque =>
      let index := bindVirtualDev motor
      refine ⟨⟨kept.setTorque index torque, fun other => ?_⟩,
        kept.sentTo index torque, ?_⟩
      · change (Function.update motors index _ other).err = _
        rw [Function.update_apply]
        split
        · rename_i same
          rw [same]
          exact warned index
        · exact warned other
      · rw [← warned index]
        exact kept.told index torque

variable [FloatMath ℚ]

end Frames

section Angles

variable {crc : List Byte → BitVec 16}

/-- The motor that is bound reported this angle, or stood at it from the
beginning. -/
def Reported (crc : List Byte → BitVec 16) (start : UnitreeMotor)
    (received : List Io.Received) (angle : ℚ) : Prop :=
  angle = start.angle ∨ ∃ buffer ∈ received,
    UnitreeMotor.Accepts crc start.id (buffer.data.getD · 0) ∧
      angle = (start.decoded (buffer.data.getD · 0)).angle

def Shown (crc : List Byte → BitVec 16) (start : Fin 6 → UnitreeMotor)
    (received : List Io.Received) : MotorAct (List Byte) → Prop
  | ⟨.getAngle motor, angle⟩ =>
      Reported crc (start (bindVirtualDev motor)) received angle
  | ⟨.setTorque _ _, _⟩ => True

structure Follows (crc : List Byte → BitVec 16) (received : List Io.Received)
    (start now : UnitreeMotor) : Prop where
  id : now.id = start.id
  dir : now.dir = start.dir
  angleOffset : now.angleOffset = start.angleOffset
  angle : Reported crc start received now.angle

def Following (crc : List Byte → BitVec 16) (received : List Io.Received)
    (start now : Fin 6 → UnitreeMotor) : Prop :=
  ∀ index, Follows crc received (start index) (now index)

theorem Follows.heard {received : List Io.Received} {start now : UnitreeMotor}
    (follows : Follows crc received start now) {buffer : Io.Received}
    (member : buffer ∈ received) :
    Follows crc received start (heard crc (buffer.data.getD · 0) now) := by
  rw [Dev.heard]
  split
  · rename_i accepted
    refine ⟨follows.id, follows.dir, follows.angleOffset, Or.inr ?_⟩
    refine ⟨buffer, member, follows.id ▸ accepted, ?_⟩
    rw [UnitreeMotor.decoded, UnitreeMotor.decoded, follows.dir,
      follows.angleOffset]
  · exact follows

variable {start motors : Fin 6 → UnitreeMotor} {received : List Io.Received}

theorem Following.happen (following : Following crc received start motors)
    (distinct : Distinct start) {buffer : Io.Received}
    (member : buffer ∈ received) :
    Following crc received start
      ((robotMotors crc).happen motors buffer) := by
  intro index
  have apart : Distinct motors :=
    distinct.of_id_eq fun other => (following other).id
  change Follows _ _ _ (receive _ _ _ _ motors index)
  rw [receive_apply apart (List.mem_finRange index)]
  split
  · exact (following index).heard member
  · exact following index

theorem Following.answer (following : Following crc received start motors)
    (op : MotorCall) :
    Following crc received start ((robotMotors crc).answer motors op).1 ∧
      Shown crc start received
        ⟨op, ((robotMotors crc).answer motors op).2⟩ := by
  cases op with
  | getAngle motor =>
      exact ⟨following, (following (bindVirtualDev motor)).angle⟩
  | setTorque motor torque =>
      refine ⟨fun index => ?_, trivial⟩
      change Follows _ _ _ (Function.update motors _ _ index)
      rw [Function.update_apply]
      split
      · rename_i same
        subst same
        obtain ⟨id, dir, angleOffset, angle⟩ :=
          following (bindVirtualDev motor)
        exact ⟨id, dir, angleOffset, angle⟩
      · exact following index

variable [FloatMath ℚ]

/-- Whatever the loop reads, the motor that is bound has reported: no answer of
another motor and no torque gets into an angle. -/
theorem control_angles (crc : List Byte → BitVec 16) (config : ChassisConfig)
    (unset : Fin 2 → Matrix (Fin 2) (Fin 2) ℚ) (init : AokeeConfig)
    (memory : Fin 6 → Dev.Data Command) (dir : Fin 6 → ℤ)
    (pidRetract : Fin 4 → Pid) (earlier : List ((ℕ → Byte) × ℤ))
    (initEvents : List InitEvent) (events : List (ThreadEvent Io.Received)) :
    let motors := ((devInit init crc).exec
      (beforeInit crc memory dir pidRetract earlier) initEvents).motors
    let acts :=
      (control crc).outputs (motors, ctrlLoop (new config unset)) events
    ∀ act ∈ acts, Shown crc motors
      (events.filterMap ThreadEvent.outside?) act := by
  intro motors acts
  have board : Board dir motors :=
    (exec_parking init (board_beforeInit memory pidRetract earlier) rfl
      initEvents).1
  have initially : Following crc (events.filterMap ThreadEvent.outside?)
      motors motors := fun index => ⟨rfl, rfl, rfl, Or.inl rfl⟩
  exact World.forall_mem_loop_outputs
    (fun now buffer member following => following.happen board.distinct
      (List.mem_filterMap.mpr ⟨_, member, rfl⟩))
    (fun now op following => following.answer op) initially _

end Angles

end RoboBand.App
