import RoboBand.App.Aokee
import RoboBand.App.Settings
import RoboBand.Io.SerialPort
import RoboBand.Util.Math
import Mathlib.Data.Fintype.Basic
import Mathlib.Tactic.FinCases

namespace RoboBand.App

open RoboBand.Data RoboBand.Util RoboBand.Io Toml SerialPort
open scoped RoboBand.Util.Index

/-! From the two configuration files to the members of the robot. -/

inductive AokeeKey where
  | cycleMs
  | legParam
  | fGravity
  | pidLParam
  | rs485
  | motorDir
  | pidRetract
  | retractSpeed
  | motorStopSpeed
  | retractCtrlCycleMs
  | retractTimeMinMs
  | jointLimitAngle
  deriving DecidableEq

namespace AokeeKey

def path : AokeeKey → List String
  | .cycleMs => ["ctrl", "chassis", "cycle_ms"]
  | .legParam => ["ctrl", "chassis", "leg_param"]
  | .fGravity => ["ctrl", "chassis", "F_gravity"]
  | .pidLParam => ["ctrl", "chassis", "pid_l_param"]
  | .rs485 => ["io", "rs485"]
  | .motorDir => ["motor_dir"]
  | .pidRetract => ["pid_retract"]
  | .retractSpeed => ["retract_speed"]
  | .motorStopSpeed => ["motor_stop_speed"]
  | .retractCtrlCycleMs => ["retract_ctrl_cycle_ms"]
  | .retractTimeMinMs => ["retract_time_min_ms"]
  | .jointLimitAngle => ["joint_limit_angle"]

abbrev type : AokeeKey → KeyType
  | .legParam => .floats 3
  | .pidLParam | .pidRetract => .floats 5
  | .motorDir => .floats 6
  | .rs485 => .string
  | .cycleMs | .fGravity | .retractSpeed | .motorStopSpeed
  | .retractCtrlCycleMs | .retractTimeMinMs | .jointLimitAngle => .float

end AokeeKey

abbrev aokeeKeys : Keys AokeeKey where
  path := AokeeKey.path
  type := AokeeKey.type

abbrev AokeeValues := aokeeKeys.Values

/-- `Pid::Pid` of an array. -/
def pidParam (param : Fin 5 → ℚ) : PidParam :=
  ⟨param 0, param 1, param 2, param 3, param 4⟩

structure ChassisMembers where
  cycleMs : ℚ
  leg : Fin 2 → Fin 3 → ℚ
  fGravity : ℚ
  pidL : PidParam

/-- What the constructor initialises its members with. -/
@[ext]
structure AokeeMembers where
  chassis : ChassisMembers
  rs485 : String
  motorDir : Fin 6 → ℤ
  pidRetract : Fin 4 → PidParam
  init : AokeeConfig

section Construct

variable {α : Type} (lib : TomlLibrary α)

/-- What `WheelLeggedChassis::WheelLeggedChassis` reads. -/
def wheelLeggedChassis (config : Entries α) : Reading ChassisMembers := do
  let cycleMs ← get lib config "cycle_ms" .float
  let left ← get lib config "leg_param" (.floats 3)
  let right ← get lib config "leg_param" (.floats 3)
  let fGravity ← get lib config "F_gravity" .float
  let pidL ← get lib config "pid_l_param" (.floats 5)
  pure {
    cycleMs := cycleMs
    leg := ![left, right]
    fGravity := fGravity
    pidL := pidParam pidL }

/-- The members of `Aokee::Aokee` up to the name of the port. -/
def beforePort (config : Entries α) : Reading (ChassisMembers × String) := do
  let ctrl ← getTable config "ctrl"
  let table ← getTable ctrl "chassis"
  let chassis ← wheelLeggedChassis lib table
  let io ← getTable config "io"
  let rs485 ← get lib io "rs485" .string
  pure (chassis, rs485)

/-- The members behind the port. -/
def behindPort (config : Entries α) (before : ChassisMembers × String) :
    Reading AokeeMembers := do
  let motor0 ← get lib config "motor_dir" (.floats 6)
  let motor1 ← get lib config "motor_dir" (.floats 6)
  let motor2 ← get lib config "motor_dir" (.floats 6)
  let motor3 ← get lib config "motor_dir" (.floats 6)
  let motor4 ← get lib config "motor_dir" (.floats 6)
  let motor5 ← get lib config "motor_dir" (.floats 6)
  let pid0 ← get lib config "pid_retract" (.floats 5)
  let pid1 ← get lib config "pid_retract" (.floats 5)
  let pid2 ← get lib config "pid_retract" (.floats 5)
  let pid3 ← get lib config "pid_retract" (.floats 5)
  let retractSpeed ← get lib config "retract_speed" .float
  let motorStopSpeed ← get lib config "motor_stop_speed" .float
  let retractCtrlCycleMs ← get lib config "retract_ctrl_cycle_ms" .float
  let retractTimeMinMs ← get lib config "retract_time_min_ms" .float
  let jointLimitAngle ← get lib config "joint_limit_angle" .float
  pure {
    chassis := before.1
    rs485 := before.2
    motorDir := ![truncate (motor0 0), truncate (motor1 1),
      truncate (motor2 2), truncate (motor3 3), truncate (motor4 4),
      truncate (motor5 5)]
    pidRetract := ![pidParam pid0, pidParam pid1, pidParam pid2,
      pidParam pid3]
    init :=
      { retractSpeed := retractSpeed
        motorStopSpeed := motorStopSpeed
        retractCtrlCycleMs := retractCtrlCycleMs
        retractTimeMinMs := retractTimeMinMs
        jointLimitAngle := jointLimitAngle } }

/-- `Aokee::Aokee`, in the order of the members.  An exception behind the port
closes it again. -/
def aokee (system : System) (config : Entries α) : Reading AokeeMembers := do
  let before ← beforePort lib config
  openPort system before.2
  Reading.unwinding (closePort system before.2) (behindPort lib config before)

def AokeeValues.chassis (values : AokeeValues) : ChassisMembers where
  cycleMs := values .cycleMs
  leg _ := values .legParam
  fGravity := values .fGravity
  pidL := pidParam (values .pidLParam)

def AokeeValues.members (values : AokeeValues) : AokeeMembers where
  chassis := values.chassis
  rs485 := values .rs485
  motorDir index := truncate (values .motorDir index)
  pidRetract _ := pidParam (values .pidRetract)
  init :=
    { retractSpeed := values .retractSpeed
      motorStopSpeed := values .motorStopSpeed
      retractCtrlCycleMs := values .retractCtrlCycleMs
      retractTimeMinMs := values .retractTimeMinMs
      jointLimitAngle := values .jointLimitAngle }

/-- The keys that are read before the port is opened. -/
def AokeeKey.beforePort : List AokeeKey :=
  [.cycleMs, .legParam, .fGravity, .pidLParam, .rs485]

section Readings

variable {lib} {config : Entries α} {values : AokeeValues}

theorem value_beforePort (holds : ∀ key ∈ AokeeKey.beforePort,
      aokeeKeys.in? lib config key = some (values key)) :
    (beforePort lib config).value = some (values.chassis, values .rs485) := by
  have cycleMsHeld := holds .cycleMs (by decide)
  have rs485Held := holds .rs485 (by decide)
  obtain ⟨ctrl, chassis, ctrlFound, chassisFound⟩ :=
    exists_tables_of_at? cycleMsHeld
  obtain ⟨io, ioFound⟩ : ∃ io, config.lookup "io" = some (.table io) :=
    exists_table_of_at? rs485Held
  have cycleMs : (get lib chassis "cycle_ms" .float).value =
      some (values .cycleMs) :=
    (value_get_innermost ctrlFound chassisFound).trans cycleMsHeld
  have legParam : (get lib chassis "leg_param" (.floats 3)).value =
      some (values .legParam) :=
    (value_get_innermost ctrlFound chassisFound).trans
      (holds .legParam (by decide))
  have fGravity : (get lib chassis "F_gravity" .float).value =
      some (values .fGravity) :=
    (value_get_innermost ctrlFound chassisFound).trans
      (holds .fGravity (by decide))
  have pidLParam : (get lib chassis "pid_l_param" (.floats 5)).value =
      some (values .pidLParam) :=
    (value_get_innermost ctrlFound chassisFound).trans
      (holds .pidLParam (by decide))
  have rs485 : (get lib io "rs485" .string).value = some (values .rs485) :=
    (value_get_inner ioFound).trans rs485Held
  have legs : ![values .legParam, values .legParam] =
      fun _ => values .legParam := by
    funext side
    fin_cases side <;> rfl
  simp only [beforePort, wheelLeggedChassis, Reading.value_bind,
    Reading.value_pure, value_getTable, ctrlFound, chassisFound, ioFound,
    Option.bind_some, cycleMs, legParam, fGravity, pidLParam, rs485]
  rw [AokeeValues.chassis, ← legs]

theorem value_behindPort (holds : ∀ key, key ∉ AokeeKey.beforePort →
      aokeeKeys.in? lib config key = some (values key)) :
    (behindPort lib config (values.chassis, values .rs485)).value =
      some values.members := by
  have motorDir : (get lib config "motor_dir" (.floats 6)).value =
      some (values .motorDir) :=
    value_get_top.trans (holds .motorDir (by decide))
  have pidRetract : (get lib config "pid_retract" (.floats 5)).value =
      some (values .pidRetract) :=
    value_get_top.trans (holds .pidRetract (by decide))
  have retractSpeed : (get lib config "retract_speed" .float).value =
      some (values .retractSpeed) :=
    value_get_top.trans (holds .retractSpeed (by decide))
  have motorStopSpeed : (get lib config "motor_stop_speed" .float).value =
      some (values .motorStopSpeed) :=
    value_get_top.trans (holds .motorStopSpeed (by decide))
  have cycle : (get lib config "retract_ctrl_cycle_ms" .float).value =
      some (values .retractCtrlCycleMs) :=
    value_get_top.trans (holds .retractCtrlCycleMs (by decide))
  have shortest : (get lib config "retract_time_min_ms" .float).value =
      some (values .retractTimeMinMs) :=
    value_get_top.trans (holds .retractTimeMinMs (by decide))
  have limit : (get lib config "joint_limit_angle" .float).value =
      some (values .jointLimitAngle) :=
    value_get_top.trans (holds .jointLimitAngle (by decide))
  rw [behindPort]
  iterate 6 rw [Reading.value_bind_of motorDir]
  iterate 4 rw [Reading.value_bind_of pidRetract]
  rw [Reading.value_bind_of retractSpeed,
    Reading.value_bind_of motorStopSpeed, Reading.value_bind_of cycle,
    Reading.value_bind_of shortest, Reading.value_bind_of limit]
  refine congrArg some (AokeeMembers.ext rfl rfl ?_ ?_ rfl)
  · funext index
    fin_cases index <;> rfl
  · funext joint
    fin_cases joint <;> rfl

theorem complete_beforePort {made : ChassisMembers × String}
    (value : (beforePort lib config).value = some made) {key : AokeeKey}
    (early : key ∈ AokeeKey.beforePort) :
    (aokeeKeys.in? lib config key).isSome = true := by
  -- from the outside in, as the readings are nested
  simp only [beforePort, ↓Reading.value_bind_eq_some, value_getTable_eq_some]
    at value
  obtain ⟨ctrl, ctrlFound, chassis, chassisFound, _, chassisRead, io, ioFound,
    rs485, rs485Got, _⟩ := value
  simp only [wheelLeggedChassis, ↓Reading.value_bind_eq_some] at chassisRead
  obtain ⟨cycleMs, cycleMsGot, _, leftGot, _, _, fGravity, fGravityGot, pidL,
    pidLGot, _⟩ := chassisRead
  cases key with
  | cycleMs =>
      exact isSome_of_innermost ctrlFound chassisFound cycleMsGot
  | legParam =>
      exact isSome_of_innermost ctrlFound chassisFound leftGot
  | fGravity =>
      exact isSome_of_innermost ctrlFound chassisFound fGravityGot
  | pidLParam =>
      exact isSome_of_innermost ctrlFound chassisFound pidLGot
  | rs485 => exact isSome_of_inner ioFound rs485Got
  | _ => exact absurd early (by decide)

theorem complete_behindPort {before : ChassisMembers × String}
    {made : AokeeMembers}
    (value : (behindPort lib config before).value = some made) {key : AokeeKey}
    (late : key ∉ AokeeKey.beforePort) :
    (aokeeKeys.in? lib config key).isSome = true := by
  simp only [behindPort, ↓Reading.value_bind_eq_some] at value
  obtain ⟨motor, motorGot, _, _, _, _, _, _, _, _, _, _, pid, pidGot, _, _, _,
    _, _, _, speed, speedGot, stop, stopGot, cycle, cycleGot, shortest,
    shortestGot, limit, limitGot, _⟩ := value
  cases key with
  | motorDir => exact isSome_of_top motorGot
  | pidRetract => exact isSome_of_top pidGot
  | retractSpeed => exact isSome_of_top speedGot
  | motorStopSpeed => exact isSome_of_top stopGot
  | retractCtrlCycleMs => exact isSome_of_top cycleGot
  | retractTimeMinMs => exact isSome_of_top shortestGot
  | jointLimitAngle => exact isSome_of_top limitGot
  | _ => exact absurd (by decide) late

theorem plain_beforePort (config : Entries α) :
    (beforePort lib config).Plain := by
  refine (plain_getTable config "ctrl").bind fun ctrl => ?_
  refine (plain_getTable ctrl "chassis").bind fun chassis => ?_
  refine Reading.Plain.bind ?_ fun members => ?_
  · repeat refine (plain_get lib chassis _ _).bind fun _ => ?_
    exact .pure _
  · refine (plain_getTable config "io").bind fun io => ?_
    refine (plain_get lib io _ _).bind fun rs485 => ?_
    exact .pure _

theorem plain_behindPort (config : Entries α)
    (before : ChassisMembers × String) :
    (behindPort lib config before).Plain := by
  repeat refine (plain_get lib config _ _).bind fun _ => ?_
  exact .pure _

end Readings

section Outcome

/-- What the constructor makes of a configuration, and what it logs: it exits
where the port does not open, and throws where a key is missing, closing the
port if it has been opened. -/
inductive AokeeOutcome (system : System) (config : Entries α) :
    Reading AokeeMembers → Prop
  | made {values : AokeeValues} {infos : List LogLine}
      (holds : aokeeKeys.Holds lib config values)
      (opens : refusal? system (values .rs485) = none)
      (plain : ∀ line ∈ infos, line.IsInfo) :
      AokeeOutcome system config ⟨infos, .ok values.members⟩
  | exits {port : String} {status : ℤ} {text : String} {infos : List LogLine}
      (found : ∀ key ∈ AokeeKey.beforePort,
        (aokeeKeys.in? lib config key).isSome = true)
      (named : aokeeKeys.in? lib config .rs485 = some port)
      (refused : refusal? system port = some (status, text))
      (plain : ∀ line ∈ infos, line.IsInfo) :
      AokeeOutcome system config
        ⟨infos ++ [.error text], .error (.exits status)⟩
  | throws {key : AokeeKey} {text : String} {infos : List LogLine}
      (early : key ∈ AokeeKey.beforePort)
      (missing : aokeeKeys.in? lib config key = none)
      (plain : ∀ line ∈ infos, line.IsInfo) :
      AokeeOutcome system config
        ⟨infos ++ [.error text], .error .wrongFile⟩
  | closes {port : String} {key : AokeeKey} {text : String}
      {infos : List LogLine}
      (found : ∀ key ∈ AokeeKey.beforePort,
        (aokeeKeys.in? lib config key).isSome = true)
      (named : aokeeKeys.in? lib config .rs485 = some port)
      (opens : refusal? system port = none)
      (missing : aokeeKeys.in? lib config key = none)
      (plain : ∀ line ∈ infos, line.IsInfo) :
      AokeeOutcome system config
        ⟨infos ++ .error text :: closePort system port, .error .wrongFile⟩

variable (system : System) (config : Entries α)

variable {lib system config}

/-- From where the port has been opened. -/
theorem outcome_of_opens {log : List LogLine} {values : AokeeValues}
    (plain : ∀ line ∈ log, line.IsInfo)
    (held : ∀ key, (aokeeKeys.in? lib config key).isSome = true →
      aokeeKeys.in? lib config key = some (values key))
    (found : ∀ key ∈ AokeeKey.beforePort,
      (aokeeKeys.in? lib config key).isSome = true)
    (opens : refusal? system (values .rs485) = none) :
    let closing := closePort system (values .rs485)
    let rest := Reading.unwinding closing
      (behindPort lib config (values.chassis, values .rs485))
    AokeeOutcome lib system config ⟨log ++ rest.log, rest.result⟩ := by
  intro closing rest
  have behind : (behindPort lib config
      (values.chassis, values .rs485)).Plain := plain_behindPort config _
  cases read : behindPort lib config (values.chassis, values .rs485) with
  | mk later result =>
      rw [read] at behind
      cases behind with
      | good made more =>
          have given : (behindPort lib config
              (values.chassis, values .rs485)).value = some made := by
            rw [read]
            rfl
          have whole : aokeeKeys.Holds lib config values := by
            refine fun key => held key ?_
            by_cases early : key ∈ AokeeKey.beforePort
            · exact found key early
            · exact complete_behindPort given early
          have same := value_behindPort fun key _ => whole key
          obtain rfl := Option.some.inj (same.symm.trans given)
          have all : rest = ⟨later, .ok values.members⟩ := by
            simp only [rest, read]
            rfl
          rw [all]
          exact .made whole opens (List.forall_mem_append.mpr ⟨plain, more⟩)
      | @bad infos text more =>
          have threw : (behindPort lib config
              (values.chassis, values .rs485)).value = none := by
            rw [read]
            rfl
          obtain ⟨key, missing⟩ : ∃ key,
              aokeeKeys.in? lib config key = none := by
            by_contra whole
            have made := value_behindPort fun key _ => held key
              (Option.isSome_iff_ne_none.mpr fun missing =>
                whole ⟨key, missing⟩)
            rw [threw] at made
            cases made
          have all : rest = ⟨infos ++ .error text :: closing,
              .error .wrongFile⟩ := by
            simp only [rest, read]
            exact congrArg (Reading.mk · _) (List.append_assoc infos _ _)
          rw [all, ← List.append_assoc]
          exact .closes found (held .rs485 (found .rs485 (by decide))) opens
            missing (List.forall_mem_append.mpr ⟨plain, more⟩)

/-- From where the name of the port has been read. -/
theorem outcome_of_beforePort {log : List LogLine} {values : AokeeValues}
    (plain : ∀ line ∈ log, line.IsInfo)
    (held : ∀ key, (aokeeKeys.in? lib config key).isSome = true →
      aokeeKeys.in? lib config key = some (values key))
    (found : ∀ key ∈ AokeeKey.beforePort,
      (aokeeKeys.in? lib config key).isSome = true) :
    let before := (values.chassis, values .rs485)
    let rest := do
      openPort system before.2
      Reading.unwinding (closePort system before.2)
        (behindPort lib config before)
    AokeeOutcome lib system config ⟨log ++ rest.log, rest.result⟩ := by
  intro before rest
  have named := held .rs485 (found .rs485 (by decide))
  cases refused : refusal? system (values .rs485) with
  | some failure =>
      have exits : rest = ⟨[.error failure.2], .error (.exits failure.1)⟩ := by
        simp only [rest, before, openPort_of_refused refused]
        rfl
      rw [exits]
      exact .exits found named refused plain
  | none =>
      have opened : rest = Reading.unwinding (closePort system (values .rs485))
          (behindPort lib config before) := by
        simp only [rest, before, openPort_of_opens refused]
        rfl
      rw [opened]
      exact outcome_of_opens plain held found refused

variable (lib system config)

/-- The robot takes just the configurations in which every key is, with a value
of its type, and whose port opens. -/
theorem aokee_reads :
    AokeeOutcome lib system config (aokee lib system config) := by
  let values : AokeeValues := fun key =>
    (aokeeKeys.in? lib config key).getD default
  have held : ∀ key, (aokeeKeys.in? lib config key).isSome = true →
      aokeeKeys.in? lib config key = some (values key) := fun key found => by
    obtain ⟨value, here⟩ := Option.isSome_iff_exists.mp found
    simp only [values, here, Option.getD_some]
  have before : (beforePort lib config).Plain := plain_beforePort config
  change AokeeOutcome lib system config ((beforePort lib config).bind _)
  cases read : beforePort lib config with
  | mk log result =>
      rw [read] at before
      cases before with
      | bad text plain =>
          have threw : (beforePort lib config).value = none := by
            rw [read]
            rfl
          obtain ⟨key, early, missing⟩ : ∃ key ∈ AokeeKey.beforePort,
              aokeeKeys.in? lib config key = none := by
            by_contra whole
            have made := value_beforePort fun key early => held key
              (Option.isSome_iff_ne_none.mpr fun missing =>
                whole ⟨key, early, missing⟩)
            rw [threw] at made
            cases made
          exact .throws early missing plain
      | good made plain =>
          have given : (beforePort lib config).value = some made := by
            rw [read]
            rfl
          have found : ∀ key ∈ AokeeKey.beforePort,
              (aokeeKeys.in? lib config key).isSome = true :=
            fun key early => complete_beforePort given early
          obtain rfl : (values.chassis, values .rs485) = made := by
            have same := value_beforePort fun key early =>
              held key (found key early)
            exact Option.some.inj (same.symm.trans given)
          exact outcome_of_beforePort plain held found

end Outcome

section Create

variable {lib} {system : System}

theorem value_aokee {config : Entries α} {values : AokeeValues}
    (holds : aokeeKeys.Holds lib config values)
    (opens : refusal? system (values .rs485) = none) :
    (aokee lib system config).value = some values.members := by
  have before := value_beforePort fun key _ => holds key
  have behind := value_behindPort fun key _ => holds key
  have opened : (openPort system (values .rs485)).value = some () := by
    rw [openPort_of_opens opens]
    rfl
  rw [aokee, Reading.value_bind_of before, Reading.value_bind_of opened,
    Reading.value_unwinding]
  exact behind

variable (lib system) in
def aokeeConstructor : Constructor lib AokeeKey AokeeMembers where
  toKeys := aokeeKeys
  construct := aokee lib system
  members := AokeeValues.members
  granted values := refusal? system (values .rs485) = none
  construct_eq := value_aokee

end Create

/-- The user's setting wherever he gives one, except that the port is always
that of the default. -/
def AokeeValues.settled (lib : TomlLibrary α) (user : Entries α)
    (values : AokeeValues) : AokeeValues := fun key =>
  if key = .rs485 then values key
  else (aokeeKeys.in? lib user key).getD (values key)

theorem aokeeKeys_settled (user : Entries α) (values : AokeeValues) :
    aokeeKeys.settled lib user values = values.settled lib user := by
  funext key
  rw [AokeeValues.settled]
  split
  · rename_i port
    subst port
    exact Keys.settled_of_even rfl user values
  · rename_i other
    refine Keys.settled_of_odd ?_ user values
    cases key <;> first | rfl | exact absurd rfl other

/-- Whatever the user's file sets stands in the robot, except for the port,
which is opened under the name that the default gives it. -/
theorem robotCreate_aokee (lib : TomlLibrary α) (system : System)
    {parseFile : String → Except String (Toml.Table α)}
    {projectPath userConfigPath : String} {user default : Toml.Table α}
    (parsed : parseFile userConfigPath = .ok user)
    (shipped : parseFile (projectPath ++ "/app/Aokee/default.toml") =
      .ok default)
    (named : at? lib.string? ["robot"] user.entries = some "Aokee")
    {values : AokeeValues} (holds : aokeeKeys.Holds lib default.entries values)
    (usable : aokeeKeys.AllUsable lib user.entries default.entries)
    (opens : refusal? system (values .rs485) = none) :
    robotCreate (aokeeBuild (aokeeConstructor lib system).create) lib.string?
        parseFile projectPath userConfigPath =
      .ok (values.settled lib user.entries).members := by
  rw [← aokeeKeys_settled]
  have port : aokeeKeys.settled lib user.entries values .rs485 =
      values .rs485 := Keys.settled_of_even rfl user.entries values
  rw [← port] at opens
  exact (aokeeConstructor lib system).robotCreate_settled rfl parsed shipped
    named holds usable opens

end Construct

section Shipped

/-- The file `app/Aokee/default.toml`. -/
def aokeeDefault : Toml.Table TomlValue :=
  let chassis :=
    (((Table.empty.set "cycle_ms" (.integer 5)).set "leg_param"
      (.array [.floating (3 / 50), .floating (3 / 20),
        .floating (11 / 50)])).set "F_gravity" (.integer (-10))).set
      "pid_l_param" (.array [.integer 500, .integer 0, .integer 10000,
        .integer 5, .integer 20])
  let io := Table.empty.set "rs485"
    (.text "/dev/serial/by-id/usb-Corecloud_Corecloud_Device-if00")
  let retract :=
    ((((Table.empty.set "pid_retract" (.array [.floating (3 / 4),
      .floating (1 / 10), .integer 0, .integer 0, .integer 20])).set
      "retract_speed" (.integer 6)).set "motor_stop_speed"
      (.floating (1 / 50))).set "retract_ctrl_cycle_ms" (.integer 5)).set
      "retract_time_min_ms" (.integer 500)
  let top :=
    ((retract.set "joint_limit_angle" (.floating (349 / 100))).set "robot"
      (.text "Aokee")).set "motor_dir" (.array [.integer 1, .integer (-1),
        .integer 1, .integer (-1), .integer 1, .integer (-1)])
  (top.setTable "io" io).setTable "ctrl"
    (Table.empty.setTable "chassis" chassis)

theorem robotCreate_aokee_of_shipped :
    let user : Toml.Table TomlValue :=
      ((Table.empty.set "robot" (.text "Aokee")).setTable "io"
        (Table.empty.set "rs485" (.text "/dev/ttyUSB0"))).setTable "ctrl"
        (Table.empty.setTable "chassis"
          (Table.empty.set "F_gravity" (.integer 40)))
    let parseFile : String → Except String (Toml.Table TomlValue) :=
      fun path => .ok (if path = "/cfg/robot.toml" then user else aokeeDefault)
    let port := "/dev/serial/by-id/usb-Corecloud_Corecloud_Device-if00"
    let system : System :=
      ⟨fun name _ => if name = port then none else some 2,
        fun _ => "No such file or directory"⟩
    ∃ members, robotCreate
        (aokeeBuild (aokeeConstructor TomlValue.library system).create)
        TomlValue.library.string? parseFile "" "/cfg/robot.toml" =
        .ok members ∧
      members.rs485 = port ∧ members.chassis.fGravity = 40 ∧
      members.init.retractSpeed = 6 := by
  intro user parseFile port system
  have whole : ∀ key, (aokeeKeys.in? TomlValue.library aokeeDefault.entries
      key).isSome = true := by
    intro key
    cases key <;> rfl
  have holds : aokeeKeys.Holds TomlValue.library aokeeDefault.entries
      fun key => (aokeeKeys.in? TomlValue.library aokeeDefault.entries
        key).get (whole key) := fun key => (Option.some_get (whole key)).symm
  have usable : aokeeKeys.AllUsable TomlValue.library user.entries
      aokeeDefault.entries := by
    intro key
    cases key with
    | cycleMs => exact .of_innermost rfl rfl nofun nofun
    | legParam => exact .of_innermost rfl rfl nofun nofun
    | pidLParam => exact .of_innermost rfl rfl nofun nofun
    | fGravity =>
        refine .of_innermost rfl rfl nofun ?_
        rintro _ ⟨⟩
        rfl
    | rs485 =>
        refine ⟨?_, fun odd => absurd rfl odd⟩
        rintro io ⟨⟩
        refine ⟨_, rfl, ?_⟩
        rintro _ ⟨⟩
        exact nofun
    | motorDir => exact .of_absent rfl
    | pidRetract => exact .of_absent rfl
    | retractSpeed => exact .of_absent rfl
    | motorStopSpeed => exact .of_absent rfl
    | retractCtrlCycleMs => exact .of_absent rfl
    | retractTimeMinMs => exact .of_absent rfl
    | jointLimitAngle => exact .of_absent rfl
  exact ⟨_, robotCreate_aokee TomlValue.library system rfl rfl rfl holds
    usable rfl, rfl, rfl, rfl⟩

end Shipped

end RoboBand.App
