import RoboBand.App.Aokee
import RoboBand.Data.Crc

namespace RoboBand.App

open RoboBand.Data RoboBand.Dev RoboBand.Util

/-! What `devInit` has seen of the joints when it calibrates them. -/

variable {config : AokeeConfig} {crc : List Byte → BitVec 16}

def InitEvent.isTurn : InitEvent → Bool
  | .frame _ _ => false
  | .turn => true

def turns (events : List InitEvent) : ℕ := events.countP InitEvent.isTurn

@[simp] theorem turns_append (before after : List InitEvent) :
    turns (before ++ after) = turns before + turns after :=
  List.countP_append

section Feedback

/-- The speed that a frame reports, if the motor with this id takes it. -/
def speedReport? (crc : List Byte → BitVec 16) (id : Byte) (dir : ℤ) :
    InitEvent → Option ℚ
  | .frame data len =>
      if 0 < len ∧ UnitreeMotor.Accepts crc id data then
        some (UnitreeMotor.rawSpeed dir (Data.readFeedback data).msg.speedFbk)
      else
        none
  | .turn => none

/-- The speed in the last frame that the motor took, and before the first such
frame the speed that it had. -/
def lastSpeed (crc : List Byte → BitVec 16) (motor : UnitreeMotor)
    (events : List InitEvent) : ℚ :=
  (events.filterMap (speedReport? crc motor.id motor.dir)).getLast?.getD
    motor.speed

theorem lastSpeed_append (motor : UnitreeMotor) (events : List InitEvent)
    (event : InitEvent) :
    lastSpeed crc motor (events ++ [event]) =
      (speedReport? crc motor.id motor.dir event).getD
        (lastSpeed crc motor events) := by
  rw [lastSpeed, List.filterMap_append]
  cases reported : speedReport? crc motor.id motor.dir event with
  | none =>
      rw [List.filterMap_cons_none reported, List.filterMap_nil,
        List.append_nil, Option.getD_none, lastSpeed]
  | some speed =>
      rw [List.filterMap_cons_some reported, List.filterMap_nil,
        List.getLast?_concat, Option.getD_some, Option.getD_some]

structure Known (crc : List Byte → BitVec 16) (motor : UnitreeMotor)
    (events : List InitEvent) (now : UnitreeMotor) : Prop where
  id : now.id = motor.id
  dir : now.dir = motor.dir
  speed : now.speed = lastSpeed crc motor events

theorem Known.frame {motor now : UnitreeMotor} {events : List InitEvent}
    (known : Known crc motor events now) (data : ℕ → Byte) (len : ℤ) :
    Known crc motor (events ++ [.frame data len])
      (if 0 < len then heard crc data now else now) := by
  by_cases taken : 0 < len ∧ UnitreeMotor.Accepts crc motor.id data
  · obtain ⟨positive, accepted⟩ := taken
    have accepts : UnitreeMotor.Accepts crc now.id data :=
      known.id.symm ▸ accepted
    rw [if_pos positive, heard, if_pos accepts]
    refine ⟨known.id, known.dir, ?_⟩
    rw [lastSpeed_append, speedReport?, if_pos ⟨positive, accepted⟩,
      Option.getD_some, ← known.dir]
    rfl
  · have same : (if 0 < len then heard crc data now else now) = now := by
      by_cases positive : 0 < len
      · rw [if_pos positive, heard, if_neg]
        exact fun accepted => taken ⟨positive, known.id ▸ accepted⟩
      · rw [if_neg positive]
    rw [same]
    refine ⟨known.id, known.dir, ?_⟩
    rw [lastSpeed_append, speedReport?, if_neg taken, Option.getD_none,
      known.speed]

theorem Known.turn {motor now next : UnitreeMotor} {events : List InitEvent}
    (known : Known crc motor events now) (id : next.id = now.id)
    (dir : next.dir = now.dir) (speed : next.speed = now.speed) :
    Known crc motor (events ++ [.turn]) next where
  id := id.trans known.id
  dir := dir.trans known.dir
  speed := by
    rw [lastSpeed_append, speedReport?, Option.getD_none, speed, known.speed]

theorem setTorque_motor (crc : List Byte → BitVec 16) (state : InitState)
    (driven index : Fin 6) (torque : ℚ) (point : InitPoint) :
    ((state.setTorque crc driven torque point).1.motors index).id =
        (state.motors index).id ∧
      ((state.setTorque crc driven torque point).1.motors index).dir =
        (state.motors index).dir ∧
      ((state.setTorque crc driven torque point).1.motors index).speed =
        (state.motors index).speed ∧
      ((state.setTorque crc driven torque point).1.motors index).err =
        (state.motors index).err := by
  simp only [InitState.setTorque]
  by_cases same : index = driven
  · subst same
    rw [Function.update_self]
    exact ⟨rfl, rfl, rfl, rfl⟩
  · rw [Function.update_of_ne same]
    exact ⟨rfl, rfl, rfl, rfl⟩

theorem turn_motor (config : AokeeConfig) (crc : List Byte → BitVec 16)
    (state : InitState) (index : Fin 6) :
    ((state.turn config crc).1.motors index).id = (state.motors index).id ∧
      ((state.turn config crc).1.motors index).dir =
        (state.motors index).dir ∧
      ((state.turn config crc).1.motors index).speed =
        (state.motors index).speed ∧
      ((state.turn config crc).1.motors index).err =
        (state.motors index).err := by
  obtain ⟨motors, pidRetract, t, point⟩ := state
  cases point with
  | command joint => exact ⟨rfl, rfl, rfl, rfl⟩
  | send joint torque => exact setTorque_motor crc _ _ index torque _
  | sleep =>
      simp only [InitState.turn]
      split <;> exact ⟨rfl, rfl, rfl, rfl⟩
  | check joint stopped =>
      simp only [InitState.turn]
      unfold InitState.afterCheck
      split <;> exact ⟨rfl, rfl, rfl, rfl⟩
  | calibrate joint =>
      simp only [InitState.turn]
      by_cases same : index = jointMotor joint
      · subst same
        rw [Function.update_self]
        exact ⟨rfl, rfl, rfl, rfl⟩
      · rw [Function.update_of_ne same]
        exact ⟨rfl, rfl, rfl, rfl⟩
  | park rest =>
      cases rest with
      | nil => exact ⟨rfl, rfl, rfl, rfl⟩
      | cons first rest => exact setTorque_motor crc _ first index 0 _

/-- The constructor numbers the motors, and no frame changes a number. -/
structure Numbered (motors : Fin 6 → UnitreeMotor) : Prop where
  id : ∀ index, (motors index).id = .ofNat 8 index.val

theorem Numbered.distinct {motors : Fin 6 → UnitreeMotor}
    (numbered : Numbered motors) :
    Function.Injective fun index => (motors index).id := by
  intro first second same
  simp only [numbered.id] at same
  revert first second
  decide

theorem numbered_foldl_hear {motors : Fin 6 → UnitreeMotor}
    (numbered : Numbered motors) (earlier : List ((ℕ → Byte) × ℤ)) :
    Numbered (earlier.foldl (hear crc) motors) := by
  induction earlier generalizing motors with
  | nil => exact numbered
  | cons frame rest ih =>
      refine ih ⟨fun index => ?_⟩
      rw [hear, receive_apply numbered.distinct (List.mem_finRange index)]
      split
      · rw [heard_id, numbered.id]
      · exact numbered.id index

theorem exec_known {start : InitState}
    (distinct : Function.Injective fun index => (start.motors index).id)
    (events : List InitEvent) (index : Fin 6) :
    Known crc (start.motors index) events
      (((devInit config crc).exec start events).motors index) := by
  have initially : ∀ index,
      Known crc (start.motors index) [] (start.motors index) :=
    fun index => ⟨rfl, rfl, rfl⟩
  have kept : ∀ events (state : InitState) event,
      (devInit config crc).exec start events = state →
      (∀ index, Known crc (start.motors index) events (state.motors index)) →
      ∀ index, Known crc (start.motors index) (events ++ [event])
        (((devInit config crc).step state event).1.motors index) := by
    intro events state event _ known index
    cases event with
    | turn =>
        obtain ⟨id, dir, speed, _⟩ := turn_motor config crc state index
        exact (known index).turn id dir speed
    | frame data len =>
        have ids : (fun index => (state.motors index).id) =
            fun index => (start.motors index).id :=
          funext fun index => (known index).id
        have now := (known index).frame data len
        rw [← receive_apply (ids ▸ distinct) (List.mem_finRange index)] at now
        exact now
  exact Machine.exec_history initially kept events index

end Feedback

section Inversion

theorem stillStopped_eq_true {state : InitState} {joint : Fin 4}
    {stopped : Bool} (still : state.stillStopped config joint stopped = true) :
    stopped = true ∧
      |(state.motors (jointMotor joint)).speed| ≤ config.motorStopSpeed := by
  simp only [InitState.stillStopped, Util.abs_eq] at still
  by_cases moving :
      config.motorStopSpeed < |(state.motors (jointMotor joint)).speed|
  · rw [if_pos moving] at still
    cases still
  · rw [if_neg moving] at still
    exact ⟨still, not_lt.mp moving⟩

/-- How the main thread gets to compare a joint with no joint found moving. -/
theorem turn_eq_check {state : InitState} {joint : Fin 4}
    (checks : (state.turn config crc).1.point = .check joint true) :
    (state.turn config crc).1.t = state.t ∧
      ((state.point = .sleep ∧ config.retractTimeMinMs < state.t.toInt ∧
          joint = 0) ∨
        ∃ prior, state.point = .check prior true ∧
          nextJoint prior = some joint ∧
          |(state.motors (jointMotor prior)).speed| ≤
            config.motorStopSpeed) := by
  obtain ⟨motors, pidRetract, t, point⟩ := state
  cases point with
  | command joint => cases checks
  | send prior torque =>
      simp only [InitState.turn, InitState.setTorque] at checks
      split at checks <;> cases checks
  | sleep =>
      simp only [InitState.turn] at checks
      split at checks
      · rename_i late
        cases checks
        refine ⟨?_, Or.inl ⟨rfl, late, rfl⟩⟩
        simp only [InitState.turn, if_pos late]
      · cases checks
  | check prior stopped =>
      simp only [InitState.turn] at checks
      cases more : nextJoint prior with
      | none =>
          rw [more, InitState.afterCheck_none] at checks
          split at checks <;> cases checks
      | some next =>
          rw [more, InitState.afterCheck] at checks
          obtain ⟨rfl, still⟩ := InitPoint.check.inj checks
          obtain ⟨rfl, slow⟩ := stillStopped_eq_true still
          refine ⟨?_, Or.inr ⟨prior, rfl, more, slow⟩⟩
          simp only [InitState.turn, more, InitState.afterCheck]
  | calibrate prior =>
      simp only [InitState.turn] at checks
      split at checks <;> cases checks
  | park rest => cases rest <;> cases checks

theorem turn_eq_calibrate {state : InitState} {joint : Fin 4}
    (calibrates : (state.turn config crc).1.point = .calibrate joint) :
    (state.turn config crc).1.t = state.t ∧
      ((joint = 0 ∧ ∃ last, state.point = .check last true ∧
          nextJoint last = none ∧
          |(state.motors (jointMotor last)).speed| ≤ config.motorStopSpeed) ∨
        ∃ prior, state.point = .calibrate prior ∧
          nextJoint prior = some joint) := by
  obtain ⟨motors, pidRetract, t, point⟩ := state
  cases point with
  | command joint => cases calibrates
  | send prior torque =>
      simp only [InitState.turn, InitState.setTorque] at calibrates
      split at calibrates <;> cases calibrates
  | sleep =>
      simp only [InitState.turn] at calibrates
      split at calibrates <;> cases calibrates
  | check prior stopped =>
      simp only [InitState.turn] at calibrates
      cases more : nextJoint prior with
      | some next =>
          rw [more, InitState.afterCheck] at calibrates
          cases calibrates
      | none =>
          rw [more, InitState.afterCheck_none] at calibrates
          split at calibrates
          · rename_i still
            cases calibrates
            obtain ⟨rfl, slow⟩ := stillStopped_eq_true still
            refine ⟨?_, Or.inl ⟨rfl, prior, rfl, more, slow⟩⟩
            simp only [InitState.turn, more, still, InitState.afterCheck]
          · cases calibrates
  | calibrate prior =>
      simp only [InitState.turn] at calibrates
      split at calibrates
      · rename_i next more
        cases calibrates
        exact ⟨rfl, Or.inr ⟨prior, rfl, more⟩⟩
      · cases calibrates
  | park rest => cases rest <;> cases calibrates

end Inversion

/-- `joint` passed the stop test `ago` steps of the main thread ago, at the
speed that its motor had last reported. -/
def Passed (config : AokeeConfig) (crc : List Byte → BitVec 16)
    (start : InitState) (joint : Fin 4) (ago : ℕ) (events : List InitEvent) :
    Prop :=
  ∃ before after, events = before ++ after ∧ turns after = ago ∧
    ((devInit config crc).exec start before).point = .check joint true ∧
    |lastSpeed crc (start.motors (jointMotor joint)) before| ≤
      config.motorStopSpeed

theorem Passed.append {start : InitState} {joint : Fin 4} {ago : ℕ}
    {events : List InitEvent}
    (passed : Passed config crc start joint ago events)
    (more : List InitEvent) :
    Passed config crc start joint (ago + turns more) (events ++ more) := by
  obtain ⟨before, after, rfl, rfl, checks, slow⟩ := passed
  exact ⟨before, after ++ more, List.append_assoc _ _ _, turns_append _ _,
    checks, slow⟩

theorem Passed.turn {start : InitState} {joint : Fin 4} {ago later : ℕ}
    {events : List InitEvent}
    (passed : Passed config crc start joint ago events)
    (count : later = ago + 1) :
    Passed config crc start joint later (events ++ [.turn]) :=
  count ▸ passed.append [.turn]

theorem Passed.here {start : InitState}
    (distinct : Function.Injective fun index => (start.motors index).id)
    {joint : Fin 4} {events : List InitEvent}
    (checks : ((devInit config crc).exec start events).point =
      .check joint true)
    (slow : |(((devInit config crc).exec start events).motors
      (jointMotor joint)).speed| ≤ config.motorStopSpeed) :
    Passed config crc start joint 1 (events ++ [.turn]) := by
  refine ⟨events, [.turn], rfl, rfl, checks, ?_⟩
  rwa [← (exec_known distinct events (jointMotor joint)).speed]

structure StopTest (config : AokeeConfig) (crc : List Byte → BitVec 16)
    (start : InitState) (events : List InitEvent) (state : InitState) :
    Prop where
  checking : ∀ joint, state.point = .check joint true →
    config.retractTimeMinMs < state.t.toInt ∧ ∀ other < joint,
      Passed config crc start other (joint.val - other.val) events
  calibrating : ∀ joint, state.point = .calibrate joint →
    config.retractTimeMinMs < state.t.toInt ∧ ∀ other,
      Passed config crc start other (4 - other.val + joint.val) events

theorem StopTest.frame {start state : InitState} {events : List InitEvent}
    (stopTest : StopTest config crc start events state) (data : ℕ → Byte)
    (len : ℤ) :
    StopTest config crc start (events ++ [.frame data len])
      (state.hear crc data len) where
  checking := fun joint checks => by
    obtain ⟨late, passed⟩ := stopTest.checking joint checks
    exact ⟨late, fun other less => (passed other less).append _⟩
  calibrating := fun joint calibrates => by
    obtain ⟨late, passed⟩ := stopTest.calibrating joint calibrates
    exact ⟨late, fun other => (passed other).append _⟩

theorem StopTest.turn {start : InitState} {events : List InitEvent}
    (distinct : Function.Injective fun index => (start.motors index).id)
    (stopTest : StopTest config crc start events
      ((devInit config crc).exec start events)) :
    StopTest config crc start (events ++ [.turn])
      (((devInit config crc).exec start events).turn config crc).1 where
  checking := fun joint checks => by
    obtain ⟨sameTime, ⟨_, late, rfl⟩ | ⟨prior, point, more, slow⟩⟩ :=
      turn_eq_check checks
    · exact ⟨sameTime ▸ late, fun other less => absurd less other.not_lt_zero⟩
    · obtain ⟨late, passed⟩ := stopTest.checking prior point
      have following := nextJoint_eq_some more
      refine ⟨sameTime ▸ late, fun other less => ?_⟩
      rcases lt_or_eq_of_le (Nat.le_of_lt_succ (following ▸ less :
        other.val < prior.val + 1)) with before | same
      · exact (passed other before).turn (by omega)
      · have equal : other = prior := Fin.ext same
        subst equal
        have one : joint.val - other.val = 1 := by omega
        exact one ▸ Passed.here distinct point slow
  calibrating := fun joint calibrates => by
    obtain ⟨sameTime, ⟨rfl, last, point, final, slow⟩ | ⟨prior, point, more⟩⟩ :=
      turn_eq_calibrate calibrates
    · obtain ⟨late, passed⟩ := stopTest.checking last point
      have three := nextJoint_eq_none final
      refine ⟨sameTime ▸ late, fun other => ?_⟩
      rcases lt_or_eq_of_le (three ▸ Nat.le_of_lt_succ other.isLt :
        other.val ≤ last.val) with before | same
      · exact (passed other before).turn (by rw [three]; omega)
      · have equal : other = last := Fin.ext same
        subst equal
        have one : 4 - other.val + (0 : Fin 4).val = 1 := by
          rw [three]
          rfl
        exact one ▸ Passed.here distinct point slow
    · obtain ⟨late, passed⟩ := stopTest.calibrating prior point
      have following := nextJoint_eq_some more
      exact ⟨sameTime ▸ late, fun other =>
        (passed other).turn (by rw [following]; omega)⟩

theorem exec_stopTest {start : InitState} (begins : start.point = .command 0)
    (distinct : Function.Injective fun index => (start.motors index).id)
    (events : List InitEvent) :
    StopTest config crc start events
      ((devInit config crc).exec start events) := by
  have initially : StopTest config crc start [] start := {
    checking := fun joint checks => by
      rw [begins] at checks
      cases checks
    calibrating := fun joint calibrates => by
      rw [begins] at calibrates
      cases calibrates }
  have kept : ∀ events (state : InitState) event,
      (devInit config crc).exec start events = state →
      StopTest config crc start events state →
      StopTest config crc start (events ++ [event])
        ((devInit config crc).step state event).1 := by
    rintro events state event rfl stopTest
    cases event with
    | frame data len => exact stopTest.frame data len
    | turn => exact stopTest.turn distinct
  exact Machine.exec_history initially kept events

theorem devInit_calibrates_slow_joints (config : AokeeConfig)
    (crc : List Byte → BitVec 16) (memory : Fin 6 → Dev.Data Command)
    (dir : Fin 6 → ℤ) (earlier : List ((ℕ → Byte) × ℤ))
    (pidRetract : Fin 4 → Pid) (events : List InitEvent) {joint : Fin 4}
    (calibrates : ((devInit config crc).exec (devInitStart
      (earlier.foldl (hear crc) (aokeeMotors memory dir)) pidRetract)
        events).point = .calibrate joint) :
    let start := devInitStart
      (earlier.foldl (hear crc) (aokeeMotors memory dir)) pidRetract
    config.retractTimeMinMs <
        ((devInit config crc).exec start events).t.toInt ∧
      ∀ other, Passed config crc start other (4 - other.val + joint.val)
        events := by
  have numbered :
      Numbered (earlier.foldl (hear crc) (aokeeMotors memory dir)) :=
    numbered_foldl_hear ⟨fun _ => rfl⟩ earlier
  exact (exec_stopTest rfl numbered.distinct events).calibrating joint
    calibrates

section Unfit

/-- The shipped configuration but for the time limit. -/
def hastyConfig : AokeeConfig where
  retractSpeed := 6
  motorStopSpeed := 2 / 100
  retractCtrlCycleMs := 5
  retractTimeMinMs := 0
  jointLimitAngle := 349 / 100

def freshStart : InitState :=
  devInitStart (aokeeMotors (fun _ => ⟨0, 0, ⟨0, 0, 0⟩, ⟨0, 0, 0, 0, 0⟩, 0⟩)
    ![1, -1, 1, -1, 1, -1])
    fun _ => .new ⟨75 / 100, 1 / 10, 0, 0, 20⟩

def overHeatFrame (id : BitVec 4) : InitEvent :=
  let body : List Byte := [0xfd, 0xee, ({ id := id, mode := 1, reserved := 0 } :
    Info).toByte, 0, 0, 0, 0, 0, 0, 0, 0, 0, 1, 0]
  .frame ((body ++ halfWord (kermit body)).getD · 0) 16

/-- Two passes of the control loop and the stop test calibrate joints that have
sent nothing, and joints that have reported a fault. -/
theorem devInit_calibrates_unfit_joints :
    let faults := [overHeatFrame 2, overHeatFrame 3, overHeatFrame 4,
      overHeatFrame 5]
    let passes := List.replicate 22 InitEvent.turn
    ((devInit hastyConfig kermit).exec freshStart passes).point =
        .calibrate 0 ∧
      ((devInit hastyConfig kermit).exec freshStart (faults ++ passes)).point =
        .calibrate 0 ∧
      ∀ joint, (((devInit hastyConfig kermit).exec freshStart
        (faults ++ passes)).motors (jointMotor joint)).err = .overHeat := by
  decide +kernel

def speedFrame (id : BitVec 4) (speed : BitVec 16) : InitEvent :=
  let body : List Byte := [0xfd, 0xee, ({ id := id, mode := 1, reserved := 0 } :
    Info).toByte, 0, 0] ++ halfWord speed ++ [0, 0, 0, 0, 25, 0, 0]
  .frame ((body ++ halfWord (kermit body)).getD · 0) 16

/-- Joints that move in the first pass and all but rest in the second. -/
def comingToRest : List InitEvent :=
  [speedFrame 2 0x0200, speedFrame 3 0xfe00, speedFrame 4 0x0100,
      speedFrame 5 0xff00] ++ List.replicate 9 .turn ++
    [speedFrame 2 4, speedFrame 3 0xfffc, speedFrame 4 2,
      speedFrame 5 0xfffe] ++ List.replicate 13 .turn

theorem devInit_calibrates_resting_joints :
    (∀ joint, (((devInit hastyConfig kermit).exec freshStart
        comingToRest).motors (jointMotor joint)).speed ≠ 0) ∧
      hastyConfig.retractTimeMinMs <
        ((devInit hastyConfig kermit).exec freshStart comingToRest).t.toInt ∧
      ∀ other, Passed hastyConfig kermit freshStart other
        (4 - other.val + (0 : Fin 4).val) comingToRest := by
  have calibrates : ((devInit hastyConfig kermit).exec freshStart
      comingToRest).point = .calibrate 0 := by decide +kernel
  refine ⟨by decide +kernel, ?_⟩
  exact devInit_calibrates_slow_joints hastyConfig kermit
    (fun _ => ⟨0, 0, ⟨0, 0, 0⟩, ⟨0, 0, 0, 0, 0⟩, 0⟩) ![1, -1, 1, -1, 1, -1] []
    (fun _ => .new ⟨75 / 100, 1 / 10, 0, 0, 20⟩) comingToRest calibrates

end Unfit

end RoboBand.App
