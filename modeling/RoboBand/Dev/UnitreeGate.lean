import RoboBand.Dev.UnitreeTorque

namespace RoboBand.Dev.UnitreeMotor

open RoboBand.Data

variable {crc : List Byte → BitVec 16}

/-! A motor that has reported an error is sent no torque until a buffer says
that it is well again. -/

/-- The low bits of the byte behind the temperature. -/
def reportedErr (data : ℕ → Byte) : MotorError :=
  .ofBits ((data 12).extractLsb' 0 3)

theorem reportedErr_eq (data : ℕ → Byte) :
    .ofBits (Data.readFeedback data).msg.err = reportedErr data := by
  have low : (Data.readFeedback data).msg.err = (data 12).extractLsb' 0 3 :=
    BitVec.extractLsb'_append_eq_of_add_le (by decide)
  rw [low, reportedErr]

variable (crc) in
/-- What the motor takes from a call, if `unpack` accepts its buffer. -/
def accepted? (motor : UnitreeMotor) : Call → Option MotorError
  | .unpack data len =>
      if (motor.unpack crc data len).2 then some (reportedErr data) else none
  | .setTorque _ | .setAngelOffset _ | .setAngel _ => none

variable (crc) in
/-- The motor in its run, with the errors that the accepted buffers report. -/
def reporting : Machine UnitreeMotor Call MotorError where
  step motor call :=
    (((running crc).step motor call).1, (accepted? crc motor call).toList)

variable (crc) in
/-- The error last reported, `NORMAL` before the first report. -/
def lastReport (motor : UnitreeMotor) (calls : List Call) : MotorError :=
  ((reporting crc).outputs motor calls).getLast?.getD .normal

theorem step_err (motor : UnitreeMotor) (call : Call) :
    ((running crc).step motor call).1.err =
      (accepted? crc motor call).getD motor.err := by
  cases call with
  | setTorque torque => rfl
  | setAngelOffset angleOffset => rfl
  | setAngel currentAngle => rfl
  | unpack data len =>
      rw [running_unpack, accepted?, unpack_eq]
      by_cases accepted : Accepts crc motor.id data
      · rw [if_pos accepted, if_pos rfl, Option.getD_some]
        exact reportedErr_eq data
      · rw [if_neg accepted]
        rfl

theorem exec_err (motor : UnitreeMotor) (calls : List Call) :
    ((running crc).exec motor calls).err =
      ((reporting crc).outputs motor calls).getLast?.getD motor.err := by
  induction calls generalizing motor with
  | nil => rfl
  | cons call rest ih =>
      rw [Machine.exec_cons, ih, step_err, Machine.outputs_cons]
      change _ = ((accepted? crc motor call).toList ++
        (reporting crc).outputs ((running crc).step motor call).1
          rest).getLast?.getD motor.err
      cases accepted? crc motor call with
      | none => rfl
      | some err =>
          rw [Option.toList_some, List.singleton_append, List.getLast?_cons,
            Option.getD_some, Option.getD_some]

theorem accepts_iff_unpack (motor : UnitreeMotor) (data : ℕ → Byte)
    (len : ℤ) :
    (motor.unpack crc data len).2 = true ↔ Accepts crc motor.id data := by
  rw [unpack_eq]
  split
  · rename_i accepted
    exact iff_of_true rfl accepted
  · rename_i rejected
    exact iff_of_false Bool.false_ne_true rejected

section Frames

variable (crc) in
/-- The error that a frame from the port reports to the motor with this id. -/
def errorIn? (id : Byte) (frame : (ℕ → Byte) × ℤ) : Option MotorError :=
  if 0 < frame.2 ∧ Accepts crc id frame.1 then some (reportedErr frame.1)
  else none

variable (crc) in
def lastError (id : Byte) (frames : List ((ℕ → Byte) × ℤ)) : MotorError :=
  (frames.filterMap (errorIn? crc id)).getLast?.getD .normal

theorem lastError_concat (id : Byte) (frames : List ((ℕ → Byte) × ℤ))
    (frame : (ℕ → Byte) × ℤ) :
    lastError crc id (frames ++ [frame]) =
      (errorIn? crc id frame).getD (lastError crc id frames) := by
  rw [lastError, List.filterMap_append]
  cases reported : errorIn? crc id frame with
  | none =>
      rw [List.filterMap_cons_none reported, List.filterMap_nil,
        List.append_nil, Option.getD_none, lastError]
  | some err =>
      rw [List.filterMap_cons_some reported, List.filterMap_nil,
        List.getLast?_concat, Option.getD_some, Option.getD_some]

theorem err_decoded (motor : UnitreeMotor) (data : ℕ → Byte) :
    (motor.decoded data).err = reportedErr data :=
  reportedErr_eq data

end Frames

theorem setTorque_gated (crc : List Byte → BitVec 16) (memory : Data Command)
    (id : Byte) (dir : ℤ) :
    (∀ (before after : List Call) (torque : ℚ), ∃ frame,
      (running crc).outputs (new memory id dir)
          (before ++ .setTorque torque :: after) =
        (running crc).outputs (new memory id dir) before ++ frame ::
          (running crc).outputs ((running crc).exec (new memory id dir)
            (before ++ [.setTorque torque])) after ∧
      let sent := (Data.readCommand (frame.getD · 0)).msg.torqueSet.toInt
      if lastReport crc (new memory id dir) before = .normal then
        Quantised (computedTorque dir torque) sent
      else sent = 0) ∧
    ∀ (motor : UnitreeMotor) (data : ℕ → Byte) (len : ℤ),
      ((motor.unpack crc data len).2 = true ↔ Accepts crc motor.id data) ∧
      ((motor.unpack crc data len).2 = false →
        (motor.unpack crc data len).1 = motor) := by
  refine ⟨fun before after torque => ?_, fun motor data len => ?_⟩
  · let told := (running crc).exec (new memory id dir) before
    have gate : told.err = lastReport crc (new memory id dir) before :=
      exec_err _ before
    have sameDir : told.dir = dir := (exec_identity crc _ before).2
    refine ⟨(told.setTorque crc torque).2, ?_, ?_⟩
    · rw [Machine.outputs_append, Machine.outputs_cons, Machine.exec_append]
      rfl
    · rw [torqueSet_frame, gate, sameDir]
      split
      · exact quantised_quantise dir torque
      · rfl
  · refine ⟨accepts_iff_unpack motor data len, fun rejected => ?_⟩
    rw [unpack_of_rejects fun accepted => ?_]
    rw [(accepts_iff_unpack motor data len).mpr accepted] at rejected
    cases rejected

end RoboBand.Dev.UnitreeMotor
