import RoboBand.Ctrl.BalanceControl
import RoboBand.Dev.WebotsMotor

namespace RoboBand.App

open RoboBand.Data RoboBand.Ctrl RoboBand.Dev
open scoped RoboBand.Util.Index

/-! The simulated robot: the main thread steps the simulator and has the
devices read it, while the loop of the controller runs on its own thread. -/

inductive Updater where
  | imu
  | motor (motor : BalanceMotor)
  deriving DecidableEq

/-- The updaters, in the order in which the robot constructs its devices. -/
def updaters : List Updater :=
  [.imu, .motor (.wheel 0), .motor (.wheel 1), .motor (.joint 0),
    .motor (.joint 1)]

/-- Where the main thread stands: the updaters that `Webots::step` has still to
call before the simulator is stepped, or behind the simulator's last step. -/
inductive StepPoint where
  | updating (rest : List Updater)
  | ended

structure Simulation where
  time : ℤ
  point : StepPoint
  imu : ImuReading
  motors : BalanceMotor → WebotsMotor

/-- What a step of the main thread meets: what the sensors say, what lies where
`WebotsMotor::update` puts its two variables, and the time after the step of
the simulator, if it has not ended. -/
structure Meeting where
  encoder : ℚ
  rollPitchYaw : ImuId → ℚ
  gyro : ImuId → ℚ
  memory : ℚ × ℤ
  stepped : Option ℕ

def WebotsImu.update (now : ℤ) (imu : ImuReading) (meeting : Meeting) :
    ImuReading :=
  if now ≠ -1 then ⟨meeting.rollPitchYaw, meeting.gyro⟩ else imu

namespace Simulation

def run (sim : Simulation) (meeting : Meeting) : Updater → Simulation
  | .imu => { sim with imu := WebotsImu.update sim.time sim.imu meeting }
  | .motor motor =>
      let updated := (sim.motors motor).update
        ⟨sim.time, meeting.encoder, meeting.memory⟩
      { sim with motors := Function.update sim.motors motor updated }

def happen (sim : Simulation) (meeting : Meeting) : Simulation :=
  match sim.point with
  | .updating (updater :: rest) =>
      { sim.run meeting updater with point := .updating rest }
  | .updating [] =>
      match meeting.stepped with
      | some time => { sim with time := time, point := .updating updaters }
      | none => { sim with time := -1, point := .ended }
  | .ended => sim

/-- What `Webots::motorSetTorque` gives to the motor of the simulator. -/
def motorSetTorque (sim : Simulation) (motor : BalanceMotor) (torque : ℚ) :
    Option ℚ :=
  if sim.time ≠ -1 then some ((sim.motors motor).dir * torque) else none

/-- The imu has no initialiser for what it reads. -/
def start (dir : BalanceMotor → ℤ) (time : ℕ) (imu : ImuReading) :
    Simulation where
  time := time
  point := .updating updaters
  imu := imu
  motors motor := .new (dir motor)

end Simulation

/-- `LqrSim::bindVirtualDev`, as the constructor calls it, binds each motor of
the controller to the motor of the same name.  What a second call would delete
is left out. -/
def simulator :
    World BalanceCall (BalanceCall.Ret (Option ℚ)) Simulation Meeting where
  happen := Simulation.happen
  answer sim
    | .getAngle motor => (sim, (sim.motors motor).angle)
    | .getSpeed motor => (sim, (sim.motors motor).speed)
    | .imuAngle id => (sim, sim.imu.angle id)
    | .imuSpeed id => (sim, sim.imu.speed id)
    | .setTorque motor torque => (sim, sim.motorSetTorque motor torque)
    | .plot _ => (sim, ())

/-- The loop of the controller, in any interleaving with the main thread. -/
def balance (config : BalanceConfig) :
    Machine (Simulation × BalanceProgram (Option ℚ) Unit)
      (ThreadEvent Meeting) (BalanceAct (Option ℚ)) :=
  simulator.loop fun _ => BalanceSys.loopBody config

section Invariant

/-- The simulator's time is -1 after its last step, and only then. -/
structure Live (dir : BalanceMotor → ℤ) (sim : Simulation) : Prop where
  dir : ∀ motor, (sim.motors motor).dir = dir motor
  running : ∀ rest, sim.point = .updating rest → sim.time ≠ -1
  ended : sim.point = .ended → sim.time = -1

variable {dir : BalanceMotor → ℤ} {sim : Simulation}

theorem natCast_ne_neg_one (time : ℕ) : (time : ℤ) ≠ -1 := by omega

theorem live_start (dir : BalanceMotor → ℤ) (time : ℕ) (imu : ImuReading) :
    Live dir (.start dir time imu) where
  dir _ := rfl
  running _ _ := natCast_ne_neg_one time
  ended := nofun

theorem dir_run (sim : Simulation) (meeting : Meeting) (updater : Updater)
    (motor : BalanceMotor) :
    ((sim.run meeting updater).motors motor).dir = (sim.motors motor).dir := by
  cases updater with
  | imu => rfl
  | motor updated =>
      change (Function.update sim.motors updated _ motor).dir = _
      rw [Function.update_apply]
      split
      · rename_i same
        rw [same, WebotsMotor.update]
        dsimp only
        split <;> rfl
      · rfl

theorem time_run (sim : Simulation) (meeting : Meeting) (updater : Updater) :
    (sim.run meeting updater).time = sim.time := by
  cases updater with
  | imu => rfl
  | motor updated => rfl

theorem Live.happen (live : Live dir sim) (meeting : Meeting) :
    Live dir (simulator.happen sim meeting) := by
  change Live dir (sim.happen meeting)
  rw [Simulation.happen]
  split
  · rename_i updater rest at_
    refine ⟨fun motor => (dir_run sim meeting updater motor).trans
      (live.dir motor), fun _ _ => ?_, nofun⟩
    exact (time_run sim meeting updater).trans_ne (live.running _ at_)
  · split
    · rename_i time _
      exact ⟨live.dir, fun _ _ => natCast_ne_neg_one time, nofun⟩
    · exact ⟨live.dir, nofun, fun _ => rfl⟩
  · exact live

theorem answer_state (sim : Simulation) (op : BalanceCall) :
    (simulator.answer sim op).1 = sim := by
  cases op with
  | getAngle motor => rfl
  | getSpeed motor => rfl
  | imuAngle id => rfl
  | imuSpeed id => rfl
  | setTorque motor torque => rfl
  | plot data => rfl

def Meeting.withMemory (memory : ℚ × ℤ) (meeting : Meeting) : Meeting :=
  { meeting with memory := memory }

/-- Before the simulator ends, both variables of `update` are written before
they are read. -/
theorem Live.happen_withMemory (live : Live dir sim) (memory : ℚ × ℤ)
    (meeting : Meeting) :
    simulator.happen sim (meeting.withMemory memory) =
      simulator.happen sim meeting := by
  change sim.happen _ = sim.happen meeting
  rw [Simulation.happen, Simulation.happen]
  cases at_ : sim.point with
  | ended => rfl
  | updating rest =>
      cases rest with
      | nil => rfl
      | cons updater rest =>
          have now := live.running _ at_
          cases updater with
          | imu => rfl
          | motor motor =>
              have stored : ∀ kept, encoderGetValue sim.time meeting.encoder
                  kept = (meeting.encoder, sim.time) := fun _ => if_pos now
              simp only [Simulation.run, Meeting.withMemory,
                WebotsMotor.update, stored]

end Invariant

/-- However the two threads are interleaved, no value that `update` finds in
its uninitialised variables reaches the controller or the simulator. -/
theorem balance_withMemory (config : BalanceConfig) (dir : BalanceMotor → ℤ)
    (time : ℕ) (imu : ImuReading) (memory : ℚ × ℤ)
    (events : List (ThreadEvent Meeting)) :
    let begun := (Simulation.start dir time imu, BalanceSys.loopBody config)
    let forgetful := events.map (ThreadEvent.map (Meeting.withMemory memory))
    (balance config).outputs begun forgetful =
        (balance config).outputs begun events ∧
      (balance config).exec begun forgetful =
        (balance config).exec begun events :=
  World.loop_map (fun _ meeting live => live.happen meeting)
    (fun _ meeting live => live.happen_withMemory memory meeting)
    (fun sim op live => (answer_state sim op).symm ▸ live)
    (live_start dir time imu) _ events

section Ending

/-- The simulator itself is stepped behind all updaters, and it has ended if
one of these steps has returned -1. -/
def SimulatorEnded (past : List Meeting) : Prop :=
  ∃ rounds meeting,
    past[(updaters.length + 1) * rounds + updaters.length]? = some meeting ∧
      meeting.stepped = none

theorem simulatorEnded_concat (past : List Meeting) (meeting : Meeting) :
    SimulatorEnded (past ++ [meeting]) ↔ SimulatorEnded past ∨
      past.length % (updaters.length + 1) = updaters.length ∧
        meeting.stepped = none := by
  change _ ↔ _ ∨ past.length % 6 = 5 ∧ _
  constructor
  · rintro ⟨rounds, last, found, stepped⟩
    change (past ++ [meeting])[6 * rounds + 5]? = some last at found
    rcases lt_or_ge (6 * rounds + 5) past.length with before | behind
    · rw [List.getElem?_append_left before] at found
      exact .inl ⟨rounds, last, found, stepped⟩
    · rw [List.getElem?_append_right behind, List.getElem?_singleton] at found
      split at found
      · obtain rfl := Option.some.inj found
        exact .inr ⟨by omega, stepped⟩
      · cases found
  · rintro (⟨rounds, last, found, stepped⟩ | ⟨turn, stepped⟩)
    · have inside := (List.getElem?_eq_some_iff.mp found).1
      exact ⟨rounds, last,
        (List.getElem?_append_left inside).trans found, stepped⟩
    · have last : 6 * (past.length / 6) + 5 = past.length := by omega
      refine ⟨past.length / 6, meeting, ?_, stepped⟩
      change (past ++ [meeting])[6 * (past.length / 6) + 5]? = some meeting
      rw [last]
      exact List.getElem?_concat_length

/-- Where the main thread stands, from how often it has been stepped. -/
def Stands (past : List Meeting) (sim : Simulation) : Prop :=
  match sim.point with
  | .updating rest => ¬ SimulatorEnded past ∧ rest.length ≤ updaters.length ∧
      (past.length + rest.length) % (updaters.length + 1) = updaters.length
  | .ended => SimulatorEnded past

theorem Stands.happen {past : List Meeting} {sim : Simulation}
    (stands : Stands past sim) (meeting : Meeting) :
    Stands (past ++ [meeting]) (simulator.happen sim meeting) := by
  change Stands _ (sim.happen meeting)
  have next : (past ++ [meeting]).length = past.length + 1 :=
    List.length_append
  obtain ⟨now, point, imu, motors⟩ := sim
  cases point with
  | ended => exact (simulatorEnded_concat past meeting).mpr (.inl stands)
  | updating rest =>
      obtain ⟨running, few, turn⟩ := stands
      cases rest with
      | cons updater rest =>
          have elsewhere : past.length % 6 ≠ 5 := by
            change rest.length + 1 ≤ 5 at few
            change (past.length + (rest.length + 1)) % 6 = 5 at turn
            omega
          refine ⟨?_, (Nat.le_succ _).trans few, ?_⟩
          · rw [simulatorEnded_concat, not_or]
            exact ⟨running, fun ended => elsewhere ended.1⟩
          · rw [next, Nat.add_assoc, Nat.add_comm 1]
            exact turn
      | nil =>
          change past.length % 6 = 5 at turn
          cases stepped : meeting.stepped with
          | none =>
              simp only [Stands, Simulation.happen, stepped]
              exact (simulatorEnded_concat past meeting).mpr
                (.inr ⟨turn, stepped⟩)
          | some time =>
              simp only [Stands, Simulation.happen, stepped]
              refine ⟨?_, le_rfl, ?_⟩
              · rw [simulatorEnded_concat, stepped, not_or]
                exact ⟨running, fun ended => nomatch ended.2⟩
              · change ((past ++ [meeting]).length + 5) % 6 = 5
                omega

end Ending

section Commands

/-- What a motor of the simulator is given is what was set, in its direction,
and nothing once the simulator has ended. -/
def Driven (dir : BalanceMotor → ℤ) (past : List Meeting) :
    BalanceAct (Option ℚ) → Prop
  | ⟨.setTorque motor torque, given⟩ =>
      (SimulatorEnded past ∧ given = none) ∨
        (¬ SimulatorEnded past ∧ given = some (dir motor * torque))
  | _ => True

variable {dir : BalanceMotor → ℤ} {sim : Simulation}

theorem Live.driven (live : Live dir sim) {past : List Meeting}
    (stands : Stands past sim) (op : BalanceCall) :
    Driven dir past ⟨op, (simulator.answer sim op).2⟩ := by
  cases op with
  | getAngle motor => trivial
  | getSpeed motor => trivial
  | imuAngle id => trivial
  | imuSpeed id => trivial
  | plot data => trivial
  | setTorque motor torque =>
      change (SimulatorEnded past ∧ sim.motorSetTorque motor torque = none) ∨
        (¬ SimulatorEnded past ∧
          sim.motorSetTorque motor torque = some (dir motor * torque))
      rw [Simulation.motorSetTorque, live.dir]
      rw [Stands] at stands
      cases point : sim.point with
      | ended =>
          rw [point] at stands
          exact .inl ⟨stands, if_neg (not_not.mpr (live.ended point))⟩
      | updating rest =>
          rw [point] at stands
          exact .inr ⟨stands.1, if_pos (live.running rest point)⟩

section Acts

variable (config : BalanceConfig) (dir : BalanceMotor → ℤ) (time : ℕ)
  (imu : ImuReading) (events : List (ThreadEvent Meeting))

end Acts

end Commands

end RoboBand.App
