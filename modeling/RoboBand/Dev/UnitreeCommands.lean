import RoboBand.Data.Crc
import RoboBand.Dev.UnitreeMotor
import Mathlib.Tactic.NormNum.Inv
import Mathlib.Tactic.NormNum.Ineq

namespace RoboBand.Dev.UnitreeMotor

open RoboBand.Data RoboBand.Util

variable {crc : List Byte → BitVec 16}

theorem setTorque_frame (motor : UnitreeMotor) (torque : ℚ) :
    (motor.setTorque crc torque).2 =
      (motor.setTorque crc torque).1.sendData.toBytes := rfl

theorem readCommand_frame (motor : UnitreeMotor) (torque : ℚ) :
    Data.readCommand ((motor.setTorque crc torque).2.getD · 0) =
      (motor.setTorque crc torque).1.sendData := by
  rw [setTorque_frame, Data.readCommand_toBytes]

/-- The value of `127.9f`. -/
def torqueLimit : ℚ := 16764109 / 131072

theorem torqueLimit_pos : 0 < torqueLimit := by norm_num [torqueLimit]

theorem round_limit : binary32.round (1279 / 10) = torqueLimit := by
  decide +kernel

theorem quantise_zero (dir : ℤ) : quantise binary32.round dir 0 = 0 := by
  have limited : absLimit 0 torqueLimit = 0 := by
    rw [absLimit_eq_clamp,
      clamp_of_abs_le (abs_zero.trans_le torqueLimit_pos.le)]
  rw [quantise, zero_mul, FloatFormat.round_zero, zero_div,
    FloatFormat.round_zero, round_limit, limited, zero_mul,
    FloatFormat.round_zero]
  rfl

theorem torqueSet_frame (motor : UnitreeMotor) (torque : ℚ) :
    (Data.readCommand ((motor.setTorque crc torque).2.getD · 0)).msg.torqueSet =
      if motor.err = .normal then quantise binary32.round motor.dir torque
      else 0 := by
  rw [readCommand_frame]
  change quantise binary32.round motor.dir
    (if motor.err ≠ .normal then 0 else torque) = _
  by_cases gate : motor.err = .normal
  · rw [if_neg (not_not.mpr gate), if_pos gate]
  · rw [if_pos gate, if_neg gate, quantise_zero]

section Memory

/-- The members of a command that nothing ever writes are zero. -/
structure Blank (data : Data Command) : Prop where
  reserved : data.info.reserved = 0
  speedSet : data.msg.speedSet = 0
  angleSet : data.msg.angleSet = 0
  kPosSet : data.msg.kPosSet = 0
  kSpdSet : data.msg.kSpdSet = 0

/-- The frame as the protocol wants it: nothing but the torque is commanded. -/
structure WellFormed (crc : List Byte → BitVec 16) (frame : List Byte) :
    Prop where
  length : frame.length = 17
  head0 : (Data.readCommand (frame.getD · 0)).head0 = sendHead.1
  head1 : (Data.readCommand (frame.getD · 0)).head1 = sendHead.2
  mode : (Data.readCommand (frame.getD · 0)).info.mode = Mode.foc.bits
  blank : Blank (Data.readCommand (frame.getD · 0))
  crc : (Data.readCommand (frame.getD · 0)).crc = crc (frame.take 15)

def settled (data : Data Command) : Data Command :=
  { data with msg := { data.msg with torqueSet := 0 }, crc := 0 }

theorem blank_settled {data : Data Command} :
    Blank (settled data) ↔ Blank data :=
  ⟨fun ⟨reserved, speedSet, angleSet, kPosSet, kSpdSet⟩ =>
      ⟨reserved, speedSet, angleSet, kPosSet, kSpdSet⟩,
    fun ⟨reserved, speedSet, angleSet, kPosSet, kSpdSet⟩ =>
      ⟨reserved, speedSet, angleSet, kPosSet, kSpdSet⟩⟩

theorem blank_new {memory : Data Command} {id : Byte} {dir : ℤ} :
    Blank (new memory id dir).sendData ↔ Blank memory :=
  ⟨fun ⟨reserved, speedSet, angleSet, kPosSet, kSpdSet⟩ =>
      ⟨reserved, speedSet, angleSet, kPosSet, kSpdSet⟩,
    fun ⟨reserved, speedSet, angleSet, kPosSet, kSpdSet⟩ =>
      ⟨reserved, speedSet, angleSet, kPosSet, kSpdSet⟩⟩

theorem step_settled (motor : UnitreeMotor) (call : Call) :
    settled ((running crc).step motor call).1.sendData =
      settled motor.sendData := by
  cases call with
  | setTorque torque => rfl
  | setAngelOffset angleOffset => rfl
  | setAngel currentAngle => rfl
  | unpack data len =>
      rw [running_unpack, (motor.unpack_identity data len).2.2]

theorem exec_settled (motor : UnitreeMotor) (calls : List Call) :
    settled ((running crc).exec motor calls).sendData =
      settled motor.sendData := by
  have kept : ∀ state call,
      settled state.sendData = settled motor.sendData →
        settled ((running crc).step state call).1.sendData =
          settled motor.sendData :=
    fun state call same => (step_settled state call).trans same
  exact Machine.exec_invariant kept rfl calls

theorem wellFormed_frame_iff {memory : Data Command} {id : Byte} {dir : ℤ}
    {motor : UnitreeMotor}
    (constructed : settled motor.sendData =
      settled (new memory id dir).sendData) (torque : ℚ) :
    WellFormed crc (motor.setTorque crc torque).2 ↔ Blank memory := by
  have sent : settled (motor.setTorque crc torque).1.sendData =
      settled (new memory id dir).sendData :=
    (step_settled motor (.setTorque torque)).trans constructed
  have received : Data.readCommand ((motor.setTorque crc torque).2.getD · 0) =
      (motor.setTorque crc torque).1.sendData := readCommand_frame motor torque
  have carried : Blank (motor.setTorque crc torque).1.sendData ↔
      Blank memory := by
    rw [← blank_settled, sent, blank_settled, blank_new]
  rw [← carried]
  constructor
  · intro formed
    exact received ▸ formed.blank
  · intro blank
    exact {
      length := rfl
      head0 := by rw [received]; exact congrArg Data.head0 sent
      head1 := by rw [received]; exact congrArg Data.head1 sent
      mode := by rw [received]; exact congrArg (·.info.mode) sent
      blank := received.symm ▸ blank
      crc := by rw [received]; rfl }

/-- A motor but for what `setTorque` overwrites. -/
def normalised (motor : UnitreeMotor) : UnitreeMotor :=
  { motor with sendData := settled motor.sendData }

theorem step_normalised (motor : UnitreeMotor) (call : Call) :
    ((running crc).step motor.normalised call).2 =
        ((running crc).step motor call).2 ∧
      ((running crc).step motor.normalised call).1.normalised =
        ((running crc).step motor call).1.normalised := by
  cases call with
  | setTorque torque => exact ⟨rfl, rfl⟩
  | setAngelOffset angleOffset => exact ⟨rfl, rfl⟩
  | setAngel currentAngle => exact ⟨rfl, rfl⟩
  | unpack data len =>
      refine ⟨rfl, ?_⟩
      have sameId : motor.normalised.id = motor.id := rfl
      rw [running_unpack, running_unpack, unpack_eq, unpack_eq, sameId]
      split
      · rfl
      · rfl

theorem outputs_eq_of_normalised {left right : UnitreeMotor}
    (same : left.normalised = right.normalised) (calls : List Call) :
    (running crc).outputs left calls = (running crc).outputs right calls := by
  have kept : ∀ (left right : UnitreeMotor) call,
      left.normalised = right.normalised →
        ((running crc).step left call).1.normalised =
          ((running crc).step right call).1.normalised := by
    intro left right call same
    rw [← (step_normalised left call).2, same, (step_normalised right call).2]
  have answers : ∀ (left right : UnitreeMotor) call,
      left.normalised = right.normalised →
        ((running crc).step left call).2 =
          ((running crc).step right call).2 := by
    intro left right call same
    rw [← (step_normalised left call).1, same, (step_normalised right call).1]
  exact Machine.outputs_eq_of_simulation kept answers same calls

theorem normalised_new {first second : Data Command} (blank : Blank first)
    (alsoBlank : Blank second) (id : Byte) (dir : ℤ) :
    (new first id dir).normalised = (new second id dir).normalised := by
  simp only [normalised, settled, new, blank.reserved, alsoBlank.reserved,
    blank.speedSet, alsoBlank.speedSet, blank.angleSet, alsoBlank.angleSet,
    blank.kPosSet, alsoBlank.kPosSet, blank.kSpdSet, alsoBlank.kSpdSet]

theorem mem_outputs_iff {motor : UnitreeMotor} {calls : List Call}
    {frame : List Byte} :
    frame ∈ (running crc).outputs motor calls ↔
      ∃ before torque after, calls = before ++ .setTorque torque :: after ∧
        frame = (((running crc).exec motor before).setTorque crc torque).2 := by
  constructor
  · intro member
    induction calls generalizing motor with
    | nil => cases member
    | cons call rest ih =>
        rcases List.mem_append.mp member with here | later
        · cases call with
          | setTorque torque =>
              exact ⟨[], torque, rest, rfl, List.mem_singleton.mp here⟩
          | setAngelOffset angleOffset => cases here
          | setAngel currentAngle => cases here
          | unpack data len => cases here
        · obtain ⟨before, torque, after, rfl, sent⟩ := ih later
          exact ⟨call :: before, torque, after, rfl, sent⟩
  · rintro ⟨before, torque, after, rfl, rfl⟩
    rw [Machine.outputs_append, Machine.outputs_cons, running_setTorque]
    exact List.mem_append_right _ List.mem_cons_self

theorem wellFormed_outputs_iff (memory : Data Command) (id : Byte) (dir : ℤ)
    (calls : List Call) :
    (∀ frame ∈ (running crc).outputs (new memory id dir) calls,
        WellFormed crc frame) ↔
      (∀ torque, .setTorque torque ∉ calls) ∨ Blank memory := by
  constructor
  · intro formed
    refine or_iff_not_imp_left.mpr fun sends => ?_
    simp only [not_forall, not_not] at sends
    obtain ⟨torque, member⟩ := sends
    obtain ⟨before, after, rfl⟩ := List.append_of_mem member
    exact (wellFormed_frame_iff (exec_settled _ before) torque).mp
      (formed _ (mem_outputs_iff.mpr ⟨before, torque, after, rfl, rfl⟩))
  · intro silentOrBlank frame member
    obtain ⟨before, torque, after, rfl, rfl⟩ := mem_outputs_iff.mp member
    rcases silentOrBlank with silent | blank
    · exact absurd (by simp) (silent torque)
    · exact (wellFormed_frame_iff (exec_settled _ before) torque).mpr blank

theorem frames_determined_iff (crc : List Byte → BitVec 16)
    (first second : Data Command) (id : Byte) (dir : ℤ) (calls : List Call) :
    ((running crc).outputs (new first id dir) calls =
        (running crc).outputs (new second id dir) calls ∧
      ∀ frame ∈ (running crc).outputs (new first id dir) calls,
        WellFormed crc frame) ↔
      (∀ torque, .setTorque torque ∉ calls) ∨ Blank first ∧ Blank second := by
  constructor
  · rintro ⟨same, formed⟩
    have firstFormed := (wellFormed_outputs_iff first id dir calls).mp formed
    rw [same] at formed
    have secondFormed := (wellFormed_outputs_iff second id dir calls).mp formed
    rw [or_and_left]
    exact ⟨firstFormed, secondFormed⟩
  · intro determined
    refine ⟨?_, (wellFormed_outputs_iff first id dir calls).mpr
      (determined.imp_right And.left)⟩
    rcases determined with silent | ⟨blank, alsoBlank⟩
    · have none : ∀ motor, (running crc).outputs motor calls = [] := by
        intro motor
        refine List.eq_nil_iff_forall_not_mem.mpr fun frame member => ?_
        obtain ⟨before, torque, after, rfl, _⟩ := mem_outputs_iff.mp member
        exact silent torque (by simp)
      rw [none, none]
    · exact outputs_eq_of_normalised (normalised_new blank alsoBlank id dir)
        calls

theorem frames_show_stale_memory :
    let blank : Data Command := ⟨0, 0, ⟨0, 0, 0⟩, ⟨0, 0, 0, 0, 0⟩, 0⟩
    let dirty : Data Command := { blank with
      msg := { blank.msg with kSpdSet := 0x0100 } }
    (running kermit).outputs (new dirty 2 1) [.setTorque 0] ≠
        (running kermit).outputs (new blank 2 1) [.setTorque 0] ∧
      ∃ frame ∈ (running kermit).outputs (new dirty 2 1) [.setTorque 0],
        ¬ WellFormed kermit frame := by
  intro blank dirty
  refine ⟨by decide +kernel, _, List.mem_cons_self, fun formed => ?_⟩
  exact absurd formed.blank.kSpdSet (by decide +kernel)

end Memory

end RoboBand.Dev.UnitreeMotor
