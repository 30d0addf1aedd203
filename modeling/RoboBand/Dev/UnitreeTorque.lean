import RoboBand.Data.FixedPoint
import RoboBand.Dev.UnitreeCommands

namespace RoboBand.Dev.UnitreeMotor

open RoboBand.Data RoboBand.Util

/-! The torque in a command is a fixed-point number in units of 1/256, and it
is the torque of the rotor, not of the output shaft. -/

/-- Exact arithmetic. -/
def unrounded (value : ℚ) : ℚ := value

def rotorTorque (dir : ℤ) (torque : ℚ) : ℚ := torque * dir / ratio

/-- The torque of the rotor, limited to what the motor may be told. -/
def limitedTorque (dir : ℤ) (torque : ℚ) : ℚ :=
  clamp (1279 / 10) (rotorTorque dir torque)

/-- The whole number that is then cast to 16 bits. -/
def uncastTorque (dir : ℤ) (torque : ℚ) : ℤ :=
  truncate (absLimit (torque * dir / ratio) (1279 / 10) * 256)

theorem rotorTorque_le {dir otherDir : ℤ} {torque greater : ℚ}
    (smaller : torque * dir ≤ greater * otherDir) :
    rotorTorque dir torque ≤ rotorTorque otherDir greater :=
  div_le_div_of_nonneg_right smaller (by norm_num [ratio])

variable (dir : ℤ) (torque : ℚ)

theorem rotorTorque_neg :
    rotorTorque dir (-torque) = -rotorTorque dir torque := by
  rw [rotorTorque, rotorTorque, neg_mul, neg_div]

theorem rotorTorque_neg_dir :
    rotorTorque (-dir) torque = -rotorTorque dir torque := by
  rw [rotorTorque, rotorTorque, Int.cast_neg, mul_neg, neg_div]

theorem uncastTorque_eq_toUnits :
    uncastTorque dir torque =
      toUnits 256 (1279 / 10) (rotorTorque dir torque) := by
  rw [uncastTorque, truncate_eq_towardZero, absLimit_eq_clamp]
  rfl

/-- 127.9 * 256 = 32742.4, which leaves 25 units below the end of 16 bits. -/
theorem abs_uncastTorque_le : |uncastTorque dir torque| ≤ 32742 := by
  have bound : (0 : ℚ) ≤ 1279 / 10 := by norm_num
  have scale : (0 : ℚ) ≤ 256 := by norm_num
  rw [uncastTorque_eq_toUnits]
  refine (abs_toUnits_le bound scale _).trans (Int.floor_le_iff.mpr ?_)
  norm_num

theorem toInt_quantise_unrounded :
    (quantise unrounded dir torque).toInt = uncastTorque dir torque := by
  obtain ⟨low, high⟩ := abs_le.mp (abs_uncastTorque_le dir torque)
  have cast : quantise unrounded dir torque =
      .ofInt 16 (uncastTorque dir torque) := rfl
  rw [cast]
  exact BitVec.toInt_ofInt_eq_self (by decide) (by omega) (by omega)

/-- The member `torque_set` of the command, after a `setTorque` that rounds
nothing. -/
def sentTorque (crc : List Byte → BitVec 16) (motor : UnitreeMotor)
    (torque : ℚ) : ℤ :=
  (setTorqueWith crc unrounded motor torque).1.sendData.msg.torqueSet.toInt

theorem sentTorque_of_normal (crc : List Byte → BitVec 16)
    {motor : UnitreeMotor} (normal : motor.err = .normal) (torque : ℚ) :
    motor.sentTorque crc torque =
      toUnits 256 (1279 / 10) (rotorTorque motor.dir torque) := by
  have gated : motor.sentTorque crc torque = (quantise unrounded motor.dir
      (if motor.err ≠ .normal then 0 else torque)).toInt := rfl
  rw [gated, if_neg (not_not.mpr normal), toInt_quantise_unrounded,
    uncastTorque_eq_toUnits]

theorem setTorque_quantises (crc : List Byte → BitVec 16)
    {motor : UnitreeMotor} (normal : motor.err = .normal) (torque : ℚ) :
    (-32742 ≤ uncastTorque motor.dir torque ∧
        uncastTorque motor.dir torque ≤ 32742 ∧
        motor.sentTorque crc torque = uncastTorque motor.dir torque) ∧
      |(motor.sentTorque crc torque : ℚ) / 256 -
          limitedTorque motor.dir torque| < 1 / 256 ∧
      |(motor.sentTorque crc torque : ℚ) / 256| ≤
        |limitedTorque motor.dir torque| ∧
      (∀ (other : UnitreeMotor) (greater : ℚ), other.err = .normal →
        torque * motor.dir ≤ greater * other.dir →
          motor.sentTorque crc torque ≤ other.sentTorque crc greater) ∧
      motor.sentTorque crc (-torque) = -motor.sentTorque crc torque ∧
      { motor with dir := -motor.dir }.sentTorque crc torque =
        -motor.sentTorque crc torque := by
  obtain ⟨low, high⟩ := abs_le.mp (abs_uncastTorque_le motor.dir torque)
  have sent := sentTorque_of_normal crc normal
  have bound : (0 : ℚ) ≤ 1279 / 10 := by norm_num
  have scale : (0 : ℚ) < 256 := by norm_num
  refine ⟨⟨low, high, ?_⟩, ?_, ?_, ?_, ?_, ?_⟩
  · rw [sent, uncastTorque_eq_toUnits]
  · rw [sent]
    exact abs_toUnits_div_sub_lt scale _
  · rw [sent]
    exact abs_toUnits_div_le scale _
  · intro other greater otherNormal smaller
    rw [sent, sentTorque_of_normal crc otherNormal]
    exact toUnits_mono scale.le (rotorTorque_le smaller)
  · rw [sent, sent, rotorTorque_neg, toUnits_neg bound]
  · have reversed : { motor with dir := -motor.dir }.err = .normal := normal
    rw [sent, sentTorque_of_normal crc reversed, rotorTorque_neg_dir,
      toUnits_neg bound]

/-- A motor that turns the other way round and is asked for more than it may be
told, beside one that is asked for little. -/
theorem setTorque_quantises_at_limit :
    let blank : Data Command := ⟨0, 0, ⟨0, 0, 0⟩, ⟨0, 0, 0, 0, 0⟩, 0⟩
    let motor := new blank 2 (-1)
    let other := new blank 3 1
    motor.sentTorque kermit 1000 = -32742 ∧
      |(motor.sentTorque kermit 1000 : ℚ) / 256 - limitedTorque (-1) 1000| <
        1 / 256 ∧
      |(motor.sentTorque kermit 1000 : ℚ) / 256| ≤
        |limitedTorque (-1) 1000| ∧
      motor.sentTorque kermit 1000 ≤ other.sentTorque kermit 1 ∧
      motor.sentTorque kermit (-1000) = -motor.sentTorque kermit 1000 ∧
      (new blank 2 1).sentTorque kermit 1000 =
        -motor.sentTorque kermit 1000 := by
  intro blank motor other
  have normal : motor.err = .normal := rfl
  obtain ⟨⟨_, _, uncast⟩, error, below, mono, odd, reversed⟩ :=
    setTorque_quantises kermit normal 1000
  exact ⟨uncast.trans (by decide +kernel), error, below,
    mono other 1 rfl (by decide +kernel), odd, reversed⟩

/-! The same in the arithmetic of the processor. -/

/-- The torque of the rotor after two operations on floats. -/
def computedTorque (dir : ℤ) (torque : ℚ) : ℚ :=
  binary32.round (binary32.round (torque * binary32.round dir) / ratio)

/-- So many units of 1/256 are told to a motor whose rotor is to turn with this
torque. -/
structure Quantised (rotor : ℚ) (units : ℤ) : Prop where
  above : torqueLimit ≤ rotor → units = 32742
  below : rotor ≤ -torqueLimit → units = -32742
  inside : |rotor| < torqueLimit →
    |(units : ℚ)| ≤ |rotor * 256| ∧ |rotor * 256| < |(units : ℚ)| + 1 ∧
      0 ≤ units * rotor

theorem floor_torqueLimit : ⌊torqueLimit * 256⌋ = 32742 := by
  rw [Int.floor_eq_iff]
  norm_num [torqueLimit]

theorem quantised_toUnits (rotor : ℚ) :
    Quantised rotor (Data.toUnits 256 torqueLimit rotor) := by
  have greatest : towardZero (torqueLimit * 256) = 32742 := by
    rw [towardZero_of_nonneg (by norm_num [torqueLimit]), floor_torqueLimit]
  refine ⟨fun above => ?_, fun below => ?_, fun inside => ?_⟩
  · rw [Data.toUnits, (clamp_eq_bound_iff torqueLimit_pos).mpr above, greatest]
  · have above : torqueLimit ≤ -rotor := le_neg_of_le_neg below
    rw [← neg_neg rotor, toUnits_neg torqueLimit_pos.le, Data.toUnits,
      (clamp_eq_bound_iff torqueLimit_pos).mpr above, greatest]
  · rw [Data.toUnits, clamp_of_abs_le inside.le]
    refine ⟨abs_towardZero_le _, abs_lt_abs_towardZero_add_one _, ?_⟩
    have sign := towardZero_mul_nonneg (rotor * 256)
    rw [← mul_assoc] at sign
    exact nonneg_of_mul_nonneg_left sign (by norm_num)

/-- The limited torque is a float, and so is 256 times as much. -/
theorem round_limited (rotor : ℚ) (float : binary32.Representable rotor) :
    binary32.round (absLimit rotor torqueLimit * 256) =
      clamp torqueLimit rotor * 256 := by
  have limit : binary32.Representable torqueLimit :=
    round_limit ▸ FloatFormat.representable_round _
  have limited : binary32.Representable (clamp torqueLimit rotor) := by
    obtain least | least := min_choice torqueLimit (max (-torqueLimit) rotor)
    · rwa [clamp, least]
    · rw [clamp, least]
      obtain most | most := max_choice (-torqueLimit) rotor
      · rw [most]
        exact FloatFormat.representable_neg limit
      · rwa [most]
  have scaled := FloatFormat.representable_mul_pow limited 8
  have scale : (2 : ℚ) ^ 8 = 256 := by norm_num
  rw [scale] at scaled
  rw [absLimit_eq_clamp, FloatFormat.round_of_representable scaled]

theorem toInt_quantise (dir : ℤ) (torque : ℚ) :
    (quantise binary32.round dir torque).toInt =
      Data.toUnits 256 torqueLimit (computedTorque dir torque) := by
  have cast : quantise binary32.round dir torque =
      .ofInt 16 (Data.toUnits 256 torqueLimit (computedTorque dir torque)) := by
    rw [quantise, round_limit]
    change BitVec.ofInt 16 (truncate (binary32.round
      (absLimit (computedTorque dir torque) _ * 256))) = _
    rw [round_limited (computedTorque dir torque)
      (FloatFormat.representable_round _), truncate_eq_towardZero]
    rfl
  have units := abs_toUnits_le torqueLimit_pos.le (by norm_num : 0 ≤ (256 : ℚ))
    (computedTorque dir torque)
  rw [floor_torqueLimit] at units
  obtain ⟨low, high⟩ := abs_le.mp units
  rw [cast]
  exact BitVec.toInt_ofInt_eq_self (by decide) (by omega) (by omega)

theorem quantised_quantise (dir : ℤ) (torque : ℚ) :
    Quantised (computedTorque dir torque)
      (quantise binary32.round dir torque).toInt :=
  toInt_quantise dir torque ▸ quantised_toUnits _

end RoboBand.Dev.UnitreeMotor
