import RoboBand.App.LqrSim
import RoboBand.App.Settings

namespace RoboBand.App

open RoboBand.Data RoboBand.Util RoboBand.Ctrl Toml

/-! From the two configuration files to the torques of the simulated robot. -/

section Motors

variable {β : Type}

def perMotor (wheel joint : Fin 2 → β) : BalanceMotor → β
  | .wheel index => wheel index
  | .joint index => joint index

def motorName : BalanceMotor → String :=
  perMotor ![ "wheel_motor_1", "wheel_motor_2"]
    ![ "joint_motor_1", "joint_motor_2"]

def motorDir : BalanceMotor → String :=
  perMotor ![ "wheel_motor_1_dir", "wheel_motor_2_dir"]
    ![ "joint_motor_1_dir", "joint_motor_2_dir"]

end Motors

inductive LqrSimKey where
  | cycleMs
  | radiusWheel
  | sRefMax
  | phiRefMax
  | thetaLRefMax
  | thetaBRefMax
  | wheelTorqueMax
  | jointTorqueMax
  | k
  | inertial
  | gyro
  | name (motor : BalanceMotor)
  | dir (motor : BalanceMotor)

namespace LqrSimKey

def path : LqrSimKey → List String
  | .cycleMs => ["ctrl", "balance_sys", "cycle_ms"]
  | .radiusWheel => ["ctrl", "balance_sys", "radius_wheel"]
  | .sRefMax => ["ctrl", "balance_sys", "s_ref_max"]
  | .phiRefMax => ["ctrl", "balance_sys", "phi_ref_max"]
  | .thetaLRefMax => ["ctrl", "balance_sys", "theta_l_ref_max"]
  | .thetaBRefMax => ["ctrl", "balance_sys", "theta_b_ref_max"]
  | .wheelTorqueMax => ["ctrl", "balance_sys", "wheel_torque_max"]
  | .jointTorqueMax => ["ctrl", "balance_sys", "joint_torque_max"]
  | .k => ["ctrl", "balance_sys", "K"]
  | .inertial => ["inertial"]
  | .gyro => ["gyro"]
  | .name motor => [motorName motor]
  | .dir motor => [motorDir motor]

abbrev type : LqrSimKey → KeyType
  | .cycleMs | .dir _ => .int
  | .radiusWheel | .sRefMax | .phiRefMax | .thetaLRefMax | .thetaBRefMax
  | .wheelTorqueMax | .jointTorqueMax => .float
  | .k => .floats (4 * 10)
  | .inertial | .gyro | .name _ => .string

end LqrSimKey

abbrev lqrSimKeys : Keys LqrSimKey where
  path := LqrSimKey.path
  type := LqrSimKey.type

abbrev LqrSimValues := lqrSimKeys.Values

/-- What the constructors of the robot and of its controller initialise their
members with. -/
structure LqrSimMembers where
  ctrlCycleMs : ℤ
  balance : BalanceConfig
  inertial : String
  gyro : String
  motorName : BalanceMotor → String
  motorDir : BalanceMotor → ℤ

section Construct

variable {α : Type} (lib : TomlLibrary α)

/-- What `BalanceSys::BalanceSys` reads. -/
def balanceSys (config : Entries α) : Reading (ℤ × BalanceConfig) := do
  let ctrlCycleMs ← get lib config "cycle_ms" .int
  let cycleMs ← get lib config "cycle_ms" .int
  let radiusWheel ← get lib config "radius_wheel" .float
  let sRefMax ← get lib config "s_ref_max" .float
  let phiRefMax ← get lib config "phi_ref_max" .float
  let thetaLRefMax ← get lib config "theta_l_ref_max" .float
  let thetaBRefMax ← get lib config "theta_b_ref_max" .float
  let wheelTorqueMax ← get lib config "wheel_torque_max" .float
  let jointTorqueMax ← get lib config "joint_torque_max" .float
  let k ← get lib config "K" (.floats (4 * 10))
  pure (ctrlCycleMs,
    { cycleMs := cycleMs
      radiusWheel := radiusWheel
      sRefMax := sRefMax
      phiRefMax := phiRefMax
      thetaLRefMax := thetaLRefMax
      thetaBRefMax := thetaBRefMax
      wheelTorqueMax := wheelTorqueMax
      jointTorqueMax := jointTorqueMax
      k := k })

/-- The devices of the simulator's world, by their names; a motor counts with
its position sensor. -/
structure Devices where
  inertial : String → Bool
  gyro : String → Bool
  motor : String → Bool

/-- A reference to what the simulator's pointer points to, if to anything. -/
def dereference (there : Bool) : Reading Unit :=
  if there then pure () else ⟨[], .error .undefined⟩

/-- What `WebotsMotor::WebotsMotor` is given, and the motor it finds. -/
def webotsMotor (devices : Devices) (config : Entries α)
    (nameKey dirKey : String) : Reading (String × ℤ) := do
  let name ← get lib config nameKey .string
  let dir ← get lib config dirKey .int
  dereference (devices.motor name)
  pure (name, dir)

/-- What `LqrSim::LqrSim` reads, in one of the orders that the arguments of a
call may be evaluated in. -/
def lqrSim (devices : Devices) (config : Entries α) :
    Reading LqrSimMembers := do
  let ctrl ← getTable config "ctrl"
  let sys ← getTable ctrl "balance_sys"
  let (ctrlCycleMs, balance) ← balanceSys lib sys
  let inertial ← get lib config "inertial" .string
  let gyro ← get lib config "gyro" .string
  dereference (devices.inertial inertial)
  dereference (devices.gyro gyro)
  let wheel1 ← webotsMotor lib devices config "wheel_motor_1"
    "wheel_motor_1_dir"
  let wheel2 ← webotsMotor lib devices config "wheel_motor_2"
    "wheel_motor_2_dir"
  let joint1 ← webotsMotor lib devices config "joint_motor_1"
    "joint_motor_1_dir"
  let joint2 ← webotsMotor lib devices config "joint_motor_2"
    "joint_motor_2_dir"
  pure {
    ctrlCycleMs := ctrlCycleMs
    balance := balance
    inertial := inertial
    gyro := gyro
    motorName := perMotor ![wheel1.1, wheel2.1] ![joint1.1, joint2.1]
    motorDir := perMotor ![wheel1.2, wheel2.2] ![joint1.2, joint2.2] }

def LqrSimValues.balance (values : LqrSimValues) : BalanceConfig where
  cycleMs := values .cycleMs
  radiusWheel := values .radiusWheel
  sRefMax := values .sRefMax
  phiRefMax := values .phiRefMax
  thetaLRefMax := values .thetaLRefMax
  thetaBRefMax := values .thetaBRefMax
  wheelTorqueMax := values .wheelTorqueMax
  jointTorqueMax := values .jointTorqueMax
  k := values .k

def LqrSimValues.members (values : LqrSimValues) : LqrSimMembers where
  ctrlCycleMs := values .cycleMs
  balance := LqrSimValues.balance values
  inertial := values .inertial
  gyro := values .gyro
  motorName motor := values (.name motor)
  motorDir motor := values (.dir motor)

variable {lib} {devices : Devices} {config ctrl sys : Entries α}

/-- The user's setting wherever he gives one. -/
def LqrSimValues.settled (lib : TomlLibrary α) (user : Entries α)
    (values : LqrSimValues) : LqrSimValues := fun key =>
  (lqrSimKeys.in? lib user key).getD (values key)

end Construct

section Shipped

end Shipped

end RoboBand.App
