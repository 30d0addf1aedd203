import RoboBand.Dev.UnitreeMotor
import RoboBand.Data.Crc
import Mathlib.Tactic.Ring

namespace RoboBand.Dev.UnitreeMotor

open RoboBand.Data

variable {crc : List Byte → BitVec 16}

/-- The call decodes no frame: what the motor reports as its angle stays. -/
def Call.Blind (crc : List Byte → BitVec 16) (id : Byte) : Call → Prop
  | .unpack data _ => ¬ Accepts crc id data
  | .setTorque _ | .setAngelOffset _ | .setAngel _ => True

def Call.Idle (crc : List Byte → BitVec 16) (id : Byte) : Call → Prop
  | .unpack data _ => ¬ Accepts crc id data
  | .setTorque _ => True
  | .setAngelOffset _ | .setAngel _ => False

theorem step_angle_of_blind {motor : UnitreeMotor} {call : Call}
    (blind : call.Blind crc motor.id) :
    ((running crc).step motor call).1.angle = motor.angle := by
  cases call with
  | setTorque torque => rfl
  | setAngelOffset angleOffset => rfl
  | setAngel currentAngle => rfl
  | unpack data len => rw [running_unpack, unpack_of_rejects blind]

theorem step_angleOffset_of_idle {motor : UnitreeMotor} {call : Call}
    (idle : call.Idle crc motor.id) :
    ((running crc).step motor call).1.angleOffset = motor.angleOffset := by
  cases call with
  | setTorque torque => rfl
  | setAngelOffset angleOffset => cases idle
  | setAngel currentAngle => cases idle
  | unpack data len => rw [running_unpack, unpack_of_rejects idle]

theorem exec_angle_of_blind {motor : UnitreeMotor} {calls : List Call}
    (blind : ∀ call ∈ calls, call.Blind crc motor.id) :
    ((running crc).exec motor calls).angle = motor.angle :=
  exec_kept UnitreeMotor.angle (Call.Blind crc)
    (fun _ _ here => step_angle_of_blind here) blind

theorem exec_angleOffset_of_idle {motor : UnitreeMotor} {calls : List Call}
    (idle : ∀ call ∈ calls, call.Idle crc motor.id) :
    ((running crc).exec motor calls).angleOffset = motor.angleOffset :=
  exec_kept UnitreeMotor.angleOffset (Call.Idle crc)
    (fun _ _ here => step_angleOffset_of_idle here) idle

/-- A frame, `setAngel`, and the next frame with the encoder where it was. -/
structure Recalibration (crc : List Byte → BitVec 16) (id : Byte)
    (first second : ℕ → Byte) (between after : List Call) : Prop where
  firstAccepted : Accepts crc id first
  secondAccepted : Accepts crc id second
  sameRaw : (Data.readFeedback second).msg.angleFbk =
    (Data.readFeedback first).msg.angleFbk
  between : ∀ call ∈ between, call.Blind crc id
  after : ∀ call ∈ after, call.Idle crc id

/-- The offset that was in force at the earlier frame comes back on top of the
angle that was set. -/
theorem exec_recalibration {motor : UnitreeMotor} {first second : ℕ → Byte}
    {between after : List Call}
    (recalibration : Recalibration crc motor.id first second between after)
    (currentAngle : ℚ) (len lenAfter : ℤ) :
    ((running crc).exec motor (.unpack first len :: (between ++
        .setAngel currentAngle ::
          (after ++ [.unpack second lenAfter])))).angle =
      currentAngle + motor.angleOffset := by
  let reported := motor.decoded first
  let turned := (running crc).exec reported between
  let calibrated := turned.setAngel currentAngle
  let waiting := (running crc).exec calibrated after
  have turnedSame := exec_identity crc reported between
  have waitingSame := exec_identity crc calibrated after
  have waitingId : waiting.id = motor.id := waitingSame.1.trans turnedSame.1
  have waitingDir : waiting.dir = motor.dir := waitingSame.2.trans turnedSame.2
  have turnedAngle : turned.angle = reported.angle :=
    exec_angle_of_blind recalibration.between
  have calibratedId : calibrated.id = motor.id := turnedSame.1
  have waitingOffset : waiting.angleOffset = reported.angle - currentAngle := by
    rw [← turnedAngle]
    exact exec_angleOffset_of_idle (calibratedId.symm ▸ recalibration.after)
  have last : (running crc).exec motor (.unpack first len :: (between ++
      .setAngel currentAngle :: (after ++ [.unpack second lenAfter]))) =
      waiting.decoded second := by
    rw [Machine.exec_cons, running_unpack,
      unpack_of_accepts recalibration.firstAccepted, Machine.exec_append,
      Machine.exec_cons, running_setAngel, Machine.exec_append,
      Machine.exec_cons, running_unpack, Machine.exec_nil]
    exact congrArg Prod.fst (unpack_of_accepts
      (waitingId.symm ▸ recalibration.secondAccepted) lenAfter)
  rw [last]
  calc (waiting.decoded second).angle
      = rawAngle motor.dir (Data.readFeedback first).msg.angleFbk -
          (reported.angle - currentAngle) := by
        rw [← recalibration.sameRaw, ← waitingOffset, ← waitingDir]
        rfl
    _ = rawAngle motor.dir (Data.readFeedback first).msg.angleFbk -
          (rawAngle motor.dir (Data.readFeedback first).msg.angleFbk -
            motor.angleOffset - currentAngle) := rfl
    _ = currentAngle + motor.angleOffset := by ring

theorem setAngel_calibrates_iff {start : UnitreeMotor}
    {first second : ℕ → Byte} {between after : List Call}
    (recalibration : Recalibration crc start.id first second between after)
    (before : List Call) (currentAngle : ℚ) (len lenAfter : ℤ) :
    ((running crc).exec start (before ++ .unpack first len :: (between ++
        .setAngel currentAngle ::
          (after ++ [.unpack second lenAfter])))).angle = currentAngle ↔
      ((running crc).exec start before).angleOffset = 0 := by
  have sameId := (exec_identity crc start before).1
  rw [Machine.exec_append, exec_recalibration (sameId.symm ▸ recalibration),
    add_eq_left]

def zeroFeedback : ℕ → Byte :=
  ([0xfd, 0xee, 0x12, 0, 0, 0, 0, 0, 0, 0, 0, 0, 0, 0, 0x5f, 0xe3].getD · 0)

theorem zeroFeedback_accepted : Accepts kermit 2 zeroFeedback := by
  decide +kernel

def blankCommand : Data Command := ⟨0, 0, ⟨0, 0, 0⟩, ⟨0, 0, 0, 0, 0⟩, 0⟩

theorem setAngel_keeps_old_offset :
    Accepts kermit 2 zeroFeedback ∧
      ((running kermit).exec (new blankCommand 2 1)
        [.setAngelOffset 1, .unpack zeroFeedback 16, .setAngel 0,
          .unpack zeroFeedback 16]).angle ≠ 0 :=
  ⟨zeroFeedback_accepted, by decide +kernel⟩

theorem setAngel_calibrates_fresh_motor :
    ((running kermit).exec (new blankCommand 2 1) [.unpack zeroFeedback 16,
      .setAngel (349 / 100), .unpack zeroFeedback 16]).angle = 349 / 100 := by
  have recalibration : Recalibration kermit (new blankCommand 2 1).id
      zeroFeedback zeroFeedback [] [] := {
    firstAccepted := zeroFeedback_accepted
    secondAccepted := zeroFeedback_accepted
    sameRaw := rfl
    between := fun _ member => by cases member
    after := fun _ member => by cases member }
  exact (setAngel_calibrates_iff recalibration [] (349 / 100) 16 16).mpr rfl

end RoboBand.Dev.UnitreeMotor
