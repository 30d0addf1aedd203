import RoboBand.Data.Composition
import RoboBand.Dev.UnitreeBus
import RoboBand.Io.Serial

namespace RoboBand.Dev

open RoboBand.Data UnitreeMotor

/-! The motors of one line as one machine: buffers arrive from the thread of
the port while other threads call the motors, in any order. -/

variable {Index : Type*} [DecidableEq Index]

/-- What other threads may ask of a motor; `unpack` is private. -/
inductive Request where
  | setTorque (torque : ℚ)
  | setAngelOffset (angleOffset : ℚ)
  | setAngel (currentAngle : ℚ)

def Request.made : Request → Call
  | .setTorque torque => .setTorque torque
  | .setAngelOffset angleOffset => .setAngelOffset angleOffset
  | .setAngel currentAngle => .setAngel currentAngle

inductive BankEvent (Index : Type*) where
  | buffer (received : Io.Received)
  | request (index : Index) (request : Request)

/-- Each frame that is sent stands beside the motor that sends it. -/
def bank (crc : List Byte → BitVec 16) (order : List Index) :
    Machine (Index → UnitreeMotor) (BankEvent Index) (Index × List Byte) where
  step motors
    | .buffer received =>
        (receive crc order (received.data.getD · 0) received.ret motors, [])
    | .request index request =>
        let called := (running crc).step (motors index) request.made
        (Function.update motors index called.1, called.2.map (index, ·))

/-- What happens to one motor. -/
def BankEvent.callsOf (index : Index) : BankEvent Index → List Call
  | .buffer received =>
      if 0 < received.ret then
        [.unpack (received.data.getD · 0) received.ret]
      else
        []
  | .request other asked => if other = index then [asked.made] else []

def sentBy? (index : Index) (sent : Index × List Byte) : Option (List Byte) :=
  if sent.1 = index then some sent.2 else none

def Distinct (motors : Index → UnitreeMotor) : Prop :=
  Function.Injective fun index => (motors index).id

section Step

variable {crc : List Byte → BitVec 16} {order : List Index}
  {motors : Index → UnitreeMotor}

omit [DecidableEq Index] in
theorem Distinct.of_id_eq (distinct : Distinct motors)
    {after : Index → UnitreeMotor}
    (same : ∀ index, (after index).id = (motors index).id) :
    Distinct after := by
  simpa only [Distinct, same] using distinct

theorem bank_request_id (index other : Index) (request : Request) :
    (((bank crc order).step motors (.request index request)).1 other).id =
      (motors other).id := by
  change (Function.update motors index _ other).id = _
  rw [Function.update_apply]
  split
  · rename_i same
    rw [same]
    exact (step_identity crc (motors index) request.made).1
  · rfl

theorem heard_eq_unpack (data : ℕ → Byte) (len : ℤ) (motor : UnitreeMotor) :
    heard crc data motor = (motor.unpack crc data len).1 := by
  rw [unpack_eq, heard]
  split <;> rfl

omit [DecidableEq Index] in
theorem heard_identity (data : ℕ → Byte) (motor : UnitreeMotor) :
    (heard crc data motor).id = motor.id ∧
      (heard crc data motor).dir = motor.dir ∧
      (heard crc data motor).sendData = motor.sendData := by
  rw [heard_eq_unpack data 0 motor]
  exact motor.unpack_identity data 0

theorem filterMap_sentBy? (index other : Index) (frames : List (List Byte)) :
    (frames.map (other, ·)).filterMap (sentBy? index) =
      if other = index then frames else [] := by
  induction frames with
  | nil => exact (ite_self []).symm
  | cons frame rest ih =>
      rw [List.map_cons, List.filterMap_cons, sentBy?, ih]
      by_cases same : other = index
      · simp only [same, if_true]
      · simp only [same, if_false]

/-- A motor that stands on the line is as though it were alone on it. -/
theorem bank_projects (crc : List Byte → BitVec 16) {index : Index}
    (member : index ∈ order) :
    Machine.Projects (bank crc order) (running crc) Distinct
      (fun motors => motors index) (BankEvent.callsOf index)
      (sentBy? index) where
  kept motors event distinct := by
    cases event with
    | buffer received => exact receive_distinct distinct _ received.ret
    | request other request =>
        exact distinct.of_id_eq fun _ => bank_request_id other _ request
  moves motors event distinct := by
    cases event with
    | buffer received =>
        change receive crc order _ received.ret motors index = _
        rw [receive_apply distinct member, BankEvent.callsOf]
        split
        · exact heard_eq_unpack _ received.ret _
        · rfl
    | request other request =>
        change Function.update motors other _ index = _
        rw [BankEvent.callsOf]
        by_cases same : other = index
        · subst same
          rw [Function.update_self, if_pos rfl]
          rfl
        · rw [Function.update_of_ne (Ne.symm same), if_neg same]
          rfl
  answers motors event distinct := by
    cases event with
    | buffer received =>
        rw [BankEvent.callsOf]
        split <;> rfl
    | request other request =>
        change (List.map (other, ·) _).filterMap (sentBy? index) = _
        rw [filterMap_sentBy?, BankEvent.callsOf]
        by_cases same : other = index
        · subst same
          rw [if_pos rfl, if_pos rfl]
          exact (List.append_nil _).symm
        · rw [if_neg same, if_neg same]
          rfl

end Step

/-- The state of each motor, and the frames that it sends, are those of the
motor alone that is given its own calls and all that the line carries. -/
theorem bank_exec (crc : List Byte → BitVec 16)
    {motors : Index → UnitreeMotor} (distinct : Distinct motors)
    {order : List Index} {index : Index} (member : index ∈ order)
    (events : List (BankEvent Index)) :
    let own := events.flatMap (BankEvent.callsOf index)
    (bank crc order).exec motors events index =
        (running crc).exec (motors index) own ∧
      ((bank crc order).outputs motors events).filterMap (sentBy? index) =
        (running crc).outputs (motors index) own :=
  ⟨(bank_projects crc member).exec distinct events,
    (bank_projects crc member).outputs distinct events⟩

theorem bank_exec_of_two :
    let motors : Bool → UnitreeMotor := fun second =>
      .new ⟨0, 0, ⟨0, 0, 0⟩, ⟨0, 0, 0, 0, 0⟩, 0⟩ (if second then 1 else 0) 1
    let buffer : Io.Received :=
      ⟨16, [0xfd, 0xee, 0x11, 0, 0, 0, 0, 0, 0, 0, 0, 0, 0, 0, 0xb1, 0x64]⟩
    ((bank kermit [false, true]).outputs motors
        [.request true (.setTorque 1), .request false (.setTorque 2),
          .buffer buffer]).filterMap (sentBy? true) =
      (running kermit).outputs (motors true)
        [.setTorque 1, .unpack (buffer.data.getD · 0) 16] := by
  intro motors buffer
  have distinct : Distinct motors := by
    intro first second
    revert first second
    decide
  exact (bank_exec kermit distinct (by decide) _).2

end RoboBand.Dev
