import RoboBand.Data.FloatFormat
import RoboBand.Data.Machine
import RoboBand.Dev.UnitreeFrame
import RoboBand.Util.Math

namespace RoboBand.Dev

open RoboBand.Data RoboBand.Util

structure UnitreeMotor where
  id : Byte
  dir : ℤ
  sendData : Data Command
  speed : ℚ
  angle : ℚ
  angleOffset : ℚ
  temp : ℤ
  err : MotorError

namespace UnitreeMotor

def sendHead : Byte × Byte := (0xfe, 0xee)

def resvHead : Byte × Byte := (0xfd, 0xee)

/-- The value of `6.33f`. -/
def ratio : ℚ := 3318743 / 524288

/-- The value of `std::numbers::pi_v<float>`. -/
def pi : ℚ := 13176795 / 4194304

/-- The constructor.  `memory` is what lay where `send_data` is put: only `mode`
has an initialiser, and only the head and the id are written besides. -/
def new (memory : Data Command) (id : Byte) (dir : ℤ) : UnitreeMotor where
  id := id
  dir := dir
  sendData := { memory with
    head0 := sendHead.1
    head1 := sendHead.2
    info := { memory.info with id := id.setWidth 4, mode := Mode.foc.bits } }
  speed := 0
  angle := 0
  angleOffset := 0
  temp := 0
  err := .normal

/-- `(int16_t)(abs_limit(torque * dir / RATIO, 127.9f) * 256.0f)`, every
operation and every literal rounded by `round`. -/
def quantise (round : ℚ → ℚ) (dir : ℤ) (torque : ℚ) : BitVec 16 :=
  let rotor := round (round (torque * round dir) / ratio)
  .ofInt 16 (truncate (round (absLimit rotor (round (1279 / 10)) * 256)))

section Crc

/-! The checksum library is not part of the repository: `crc` stands for
`CRC::Calculate` with the parameters of CRC-16/KERMIT. -/

variable (crc : List Byte → BitVec 16)

def setTorqueWith (round : ℚ → ℚ) (motor : UnitreeMotor) (torque : ℚ) :
    UnitreeMotor × List Byte :=
  let torque := if motor.err ≠ .normal then 0 else torque
  let sendData := { motor.sendData with
    msg := { motor.sendData.msg with
      torqueSet := quantise round motor.dir torque } }
  let sendData := { sendData with crc := crc sendData.body }
  ({ motor with sendData := sendData }, sendData.toBytes)

/-- The command is computed in binary32; `NaN` apart, a float beyond the range
of the format is limited like any other that is too great. -/
def setTorque : UnitreeMotor → ℚ → UnitreeMotor × List Byte :=
  setTorqueWith crc binary32.round

def setAngelOffset (motor : UnitreeMotor) (angleOffset : ℚ) : UnitreeMotor :=
  { motor with angleOffset := angleOffset }

def setAngel (motor : UnitreeMotor) (currentAngle : ℚ) : UnitreeMotor :=
  { motor with angleOffset := motor.angle - currentAngle }

/-- The angle that the encoder reading stands for, before the offset. -/
def rawAngle (dir : ℤ) (angleFbk : BitVec 32) : ℚ :=
  angleFbk.toInt / 32768 * 2 * pi / ratio * dir

def rawSpeed (dir : ℤ) (speedFbk : BitVec 16) : ℚ :=
  speedFbk.toInt / 256 * 2 * pi / ratio * dir

/-- `data` is the memory from the pointer on; `len` is never looked at. -/
def unpack (motor : UnitreeMotor) (data : ℕ → Byte) (_len : ℤ) :
    UnitreeMotor × Bool :=
  let fbk := Data.readFeedback data
  if fbk.head0 ≠ resvHead.1 ∨ fbk.head1 ≠ resvHead.2 ∨
      fbk.info.id.setWidth 8 ≠ motor.id then
    (motor, false)
  else if fbk.crc ≠ crc ((List.range 14).map data) then
    (motor, false)
  else
    ({ motor with
        angle := rawAngle motor.dir fbk.msg.angleFbk - motor.angleOffset
        speed := rawSpeed motor.dir fbk.msg.speedFbk
        temp := fbk.msg.tempFbk.toInt
        err := .ofBits fbk.msg.err },
      true)

structure Accepts (id : Byte) (data : ℕ → Byte) : Prop where
  head0 : (Data.readFeedback data).head0 = resvHead.1
  head1 : (Data.readFeedback data).head1 = resvHead.2
  own : (Data.readFeedback data).info.id.setWidth 8 = id
  intact : (Data.readFeedback data).crc = crc ((List.range 14).map data)

theorem accepts_iff {id : Byte} {data : ℕ → Byte} :
    Accepts crc id data ↔ (Data.readFeedback data).head0 = resvHead.1 ∧
      (Data.readFeedback data).head1 = resvHead.2 ∧
      (Data.readFeedback data).info.id.setWidth 8 = id ∧
      (Data.readFeedback data).crc = crc ((List.range 14).map data) :=
  ⟨fun ⟨head0, head1, own, intact⟩ => ⟨head0, head1, own, intact⟩,
    fun ⟨head0, head1, own, intact⟩ => ⟨head0, head1, own, intact⟩⟩

instance (id : Byte) (data : ℕ → Byte) : Decidable (Accepts crc id data) :=
  decidable_of_iff _ (accepts_iff crc).symm

def decoded (motor : UnitreeMotor) (data : ℕ → Byte) : UnitreeMotor :=
  let msg := (Data.readFeedback data).msg
  { motor with
    angle := rawAngle motor.dir msg.angleFbk - motor.angleOffset
    speed := rawSpeed motor.dir msg.speedFbk
    temp := msg.tempFbk.toInt
    err := .ofBits msg.err }

variable {crc}

theorem unpack_of_accepts {motor : UnitreeMotor} {data : ℕ → Byte}
    (accepted : Accepts crc motor.id data) (len : ℤ) :
    motor.unpack crc data len = (motor.decoded data, true) := by
  have passes : ¬ ((Data.readFeedback data).head0 ≠ resvHead.1 ∨
      (Data.readFeedback data).head1 ≠ resvHead.2 ∨
      (Data.readFeedback data).info.id.setWidth 8 ≠ motor.id) := by
    rw [not_or, not_or, not_not, not_not, not_not]
    exact ⟨accepted.head0, accepted.head1, accepted.own⟩
  unfold unpack
  exact (if_neg passes).trans (if_neg (not_not.mpr accepted.intact))

theorem unpack_of_rejects {motor : UnitreeMotor} {data : ℕ → Byte}
    (rejected : ¬ Accepts crc motor.id data) (len : ℤ) :
    motor.unpack crc data len = (motor, false) := by
  unfold unpack
  by_cases misses : (Data.readFeedback data).head0 ≠ resvHead.1 ∨
      (Data.readFeedback data).head1 ≠ resvHead.2 ∨
      (Data.readFeedback data).info.id.setWidth 8 ≠ motor.id
  · exact if_pos misses
  · refine (if_neg misses).trans (if_pos fun intact => rejected ?_)
    rw [not_or, not_or, not_not, not_not, not_not] at misses
    exact ⟨misses.1, misses.2.1, misses.2.2, intact⟩

theorem accepts_of_unpack {motor : UnitreeMotor} {data : ℕ → Byte} {len : ℤ}
    (taken : (motor.unpack crc data len).2 = true) :
    Accepts crc motor.id data := by
  by_contra rejected
  rw [unpack_of_rejects rejected] at taken
  exact Bool.false_ne_true taken

theorem unpack_eq (motor : UnitreeMotor) (data : ℕ → Byte) (len : ℤ) :
    motor.unpack crc data len =
      if Accepts crc motor.id data then (motor.decoded data, true)
      else (motor, false) := by
  split
  · rename_i accepted
    exact unpack_of_accepts accepted len
  · rename_i rejected
    exact unpack_of_rejects rejected len

end Crc

inductive Call where
  | setTorque (torque : ℚ)
  | setAngelOffset (angleOffset : ℚ)
  | setAngel (currentAngle : ℚ)
  | unpack (data : ℕ → Byte) (len : ℤ)

section Runs

variable (crc : List Byte → BitVec 16)

def running : Machine UnitreeMotor Call (List Byte) where
  step motor
    | .setTorque torque =>
        let called := motor.setTorque crc torque
        (called.1, [called.2])
    | .setAngelOffset angleOffset => (motor.setAngelOffset angleOffset, [])
    | .setAngel currentAngle => (motor.setAngel currentAngle, [])
    | .unpack data len => ((motor.unpack crc data len).1, [])

@[simp] theorem running_setTorque (motor : UnitreeMotor) (torque : ℚ) :
    (running crc).step motor (.setTorque torque) =
      ((motor.setTorque crc torque).1, [(motor.setTorque crc torque).2]) := rfl

@[simp] theorem running_setAngelOffset (motor : UnitreeMotor)
    (angleOffset : ℚ) :
    (running crc).step motor (.setAngelOffset angleOffset) =
      (motor.setAngelOffset angleOffset, []) := rfl

@[simp] theorem running_setAngel (motor : UnitreeMotor) (currentAngle : ℚ) :
    (running crc).step motor (.setAngel currentAngle) =
      (motor.setAngel currentAngle, []) := rfl

@[simp] theorem running_unpack (motor : UnitreeMotor) (data : ℕ → Byte)
    (len : ℤ) :
    (running crc).step motor (.unpack data len) =
      ((motor.unpack crc data len).1, []) := rfl

variable {crc}

theorem unpack_identity (motor : UnitreeMotor) (data : ℕ → Byte) (len : ℤ) :
    (motor.unpack crc data len).1.id = motor.id ∧
      (motor.unpack crc data len).1.dir = motor.dir ∧
      (motor.unpack crc data len).1.sendData = motor.sendData := by
  rw [unpack_eq]
  split
  · exact ⟨rfl, rfl, rfl⟩
  · exact ⟨rfl, rfl, rfl⟩

variable (crc) in
theorem step_identity (motor : UnitreeMotor) (call : Call) :
    ((running crc).step motor call).1.id = motor.id ∧
      ((running crc).step motor call).1.dir = motor.dir := by
  cases call with
  | setTorque torque => exact ⟨rfl, rfl⟩
  | setAngelOffset angleOffset => exact ⟨rfl, rfl⟩
  | setAngel currentAngle => exact ⟨rfl, rfl⟩
  | unpack data len =>
      obtain ⟨id, dir, _⟩ := motor.unpack_identity data len
      exact ⟨id, dir⟩

variable (crc) in
theorem exec_identity (motor : UnitreeMotor) (calls : List Call) :
    ((running crc).exec motor calls).id = motor.id ∧
      ((running crc).exec motor calls).dir = motor.dir := by
  have kept : ∀ state call, state.id = motor.id ∧ state.dir = motor.dir →
      ((running crc).step state call).1.id = motor.id ∧
        ((running crc).step state call).1.dir = motor.dir := by
    rintro state call ⟨id, dir⟩
    obtain ⟨sameId, sameDir⟩ := step_identity crc state call
    exact ⟨sameId.trans id, sameDir.trans dir⟩
  exact Machine.exec_invariant kept ⟨rfl, rfl⟩ calls

/-- What a kind of call leaves alone, a run of such calls leaves alone. -/
theorem exec_kept {Value : Type*} (value : UnitreeMotor → Value)
    (good : Byte → Call → Prop)
    (kept : ∀ state call, good state.id call →
      value ((running crc).step state call).1 = value state)
    {motor : UnitreeMotor} {calls : List Call}
    (all : ∀ call ∈ calls, good motor.id call) :
    value ((running crc).exec motor calls) = value motor := by
  have stepKept : ∀ (state : UnitreeMotor) (call : Call),
      state.id = motor.id ∧ value state = value motor → good motor.id call →
      ((running crc).step state call).1.id = motor.id ∧
        value ((running crc).step state call).1 = value motor := by
    rintro state call ⟨id, same⟩ here
    refine ⟨(step_identity crc state call).1.trans id, ?_⟩
    exact (kept state call (id ▸ here)).trans same
  exact (Machine.exec_invariant_of_forall stepKept ⟨rfl, rfl⟩ all).2

end Runs

end UnitreeMotor

end RoboBand.Dev
