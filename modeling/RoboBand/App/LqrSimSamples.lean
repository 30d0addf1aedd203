import RoboBand.App.LqrSim

namespace RoboBand.App

open RoboBand.Data RoboBand.Ctrl RoboBand.Dev

/-! What the motors of the simulated robot have been through: the samples that
the main thread takes for each of them. -/

/-- The sample that a step of the main thread takes, and the motor that it
takes it for. -/
def Simulation.taken (sim : Simulation) (meeting : Meeting) :
    List (BalanceMotor × Sample) :=
  match sim.point with
  | .updating (.motor motor :: _) =>
      [(motor, ⟨sim.time, meeting.encoder, meeting.memory⟩)]
  | .updating (.imu :: _) | .updating [] | .ended => []

/-- The main thread by itself. -/
def mainThread : Machine Simulation Meeting (BalanceMotor × Sample) where
  step sim meeting := (sim.happen meeting, sim.taken meeting)

def sampleFor? (motor : BalanceMotor) (taken : BalanceMotor × Sample) :
    Option Sample :=
  if taken.1 = motor then some taken.2 else none

theorem filterMap_sampleFor? (motor other : BalanceMotor) (sample : Sample) :
    [(other, sample)].filterMap (sampleFor? motor) =
      if other = motor then [sample] else [] := by
  by_cases same : other = motor
  · rw [if_pos same]
    exact List.filterMap_cons_some (if_pos same)
  · rw [if_neg same]
    exact List.filterMap_cons_none (if_neg same)

def samplesFor (motor : BalanceMotor) (sim : Simulation)
    (meetings : List Meeting) : List Sample :=
  (mainThread.outputs sim meetings).filterMap (sampleFor? motor)

theorem samplesFor_cons (motor : BalanceMotor) (sim : Simulation)
    (meeting : Meeting) (rest : List Meeting) :
    samplesFor motor sim (meeting :: rest) =
      (sim.taken meeting).filterMap (sampleFor? motor) ++
        samplesFor motor (sim.happen meeting) rest := by
  rw [samplesFor, Machine.outputs_cons, List.filterMap_append]
  rfl

/-- The loop of the controller leaves the devices as they are. -/
theorem balance_exec (config : BalanceConfig) (sim : Simulation)
    (program : BalanceProgram (Option ℚ) Unit)
    (events : List (ThreadEvent Meeting)) :
    ((balance config).exec (sim, program) events).1 =
      mainThread.exec sim (events.filterMap ThreadEvent.outside?) := by
  induction events generalizing sim program with
  | nil => rfl
  | cons event rest ih =>
      cases event with
      | outside meeting => exact ih (sim.happen meeting) program
      | turn =>
          cases program with
          | returns result => exact ih sim _
          | calls op next =>
              refine (ih (simulator.answer sim op).1 _).trans ?_
              rw [answer_state]
              rfl

/-- Each motor goes through the samples that are taken for it, and through
nothing else. -/
theorem mainThread_motors (motor : BalanceMotor) (sim : Simulation)
    (meetings : List Meeting) :
    (mainThread.exec sim meetings).motors motor =
      WebotsMotor.machine.exec (sim.motors motor)
        ((samplesFor motor sim meetings).map .update) := by
  induction meetings generalizing sim with
  | nil => rfl
  | cons meeting rest ih =>
      rw [samplesFor_cons, List.map_append, Machine.exec_append]
      refine (ih (sim.happen meeting)).trans ?_
      refine congrArg (WebotsMotor.machine.exec · _) ?_
      rw [Simulation.happen, Simulation.taken]
      cases sim.point with
      | ended => rfl
      | updating updaters =>
          cases updaters with
          | nil => cases meeting.stepped <;> rfl
          | cons updater later =>
              cases updater with
              | imu => rfl
              | motor other =>
                  change Function.update sim.motors other _ motor = _
                  rw [filterMap_sampleFor?]
                  by_cases same : other = motor
                  · subst same
                    rw [Function.update_self, if_pos rfl]
                    rfl
                  · rw [Function.update_of_ne (Ne.symm same), if_neg same]
                    rfl

section Ticking

/-- The time of the simulator goes on with each of its steps. -/
def Grows (sim : Simulation) (meeting : Meeting) : Prop :=
  sim.point = .updating [] → ∀ time ∈ meeting.stepped, sim.time < (time : ℕ)

/-- What is still to come in a motor's samples, from where the main thread
stands: at this time or later, and later if the motor has had its turn. -/
def Onward (motor : BalanceMotor) (sim : Simulation) (sampled : List ℤ) :
    Prop :=
  sampled.Pairwise (· < ·) ∧
    match sim.point with
    | .updating rest =>
        (∀ time ∈ sampled, sim.time ≤ time) ∧
          (.motor motor ∉ rest → ∀ time ∈ sampled, sim.time < time)
    | .ended => sampled = []

structure Orderly (sim : Simulation) : Prop where
  nodup : ∀ rest, sim.point = .updating rest → rest.Nodup

theorem Orderly.happen {sim : Simulation} (orderly : Orderly sim)
    (meeting : Meeting) : Orderly (sim.happen meeting) := by
  constructor
  intro rest stands
  rw [Simulation.happen] at stands
  split at stands
  · rename_i updater later here
    obtain rfl := StepPoint.updating.inj stands
    exact (List.nodup_cons.mp (orderly.nodup _ here)).2
  · split at stands
    · obtain rfl := StepPoint.updating.inj stands
      decide
    · cases stands
  · rename_i here
    exact orderly.nodup rest stands

theorem Onward.before {motor : BalanceMotor} {sim : Simulation}
    {meeting : Meeting} {sampled : List ℤ} (orderly : Orderly sim)
    (grows : Grows sim meeting)
    (after : Onward motor (sim.happen meeting) sampled) :
    Onward motor sim (((sim.taken meeting).filterMap
      (sampleFor? motor)).map Sample.time ++ sampled) := by
  obtain ⟨now, point, imu, motors⟩ := sim
  cases point with
  | ended => exact after
  | updating rest =>
      cases rest with
      | nil =>
          cases stepped : meeting.stepped with
          | none =>
              simp only [Onward, Simulation.happen, stepped] at after
              obtain ⟨_, rfl⟩ := after
              exact ⟨List.Pairwise.nil,
                fun _ member => absurd member List.not_mem_nil,
                fun _ _ member => absurd member List.not_mem_nil⟩
          | some time =>
              simp only [Onward, Simulation.happen, stepped] at after
              obtain ⟨increasing, since, _⟩ := after
              have went : now < time := grows rfl time stepped
              exact ⟨increasing, fun later member =>
                went.le.trans (since later member), fun _ later member =>
                went.trans_le (since later member)⟩
      | cons updater rest =>
          obtain ⟨increasing, since, beyond⟩ := after
          have still : (Simulation.happen ⟨now, .updating (updater :: rest),
              imu, motors⟩ meeting).time = now := time_run _ meeting updater
          rw [still] at since beyond
          have skipped : Onward motor ⟨now, .updating (updater :: rest), imu,
              motors⟩ sampled :=
            ⟨increasing, since, fun absent =>
              beyond fun member => absent (List.mem_cons_of_mem _ member)⟩
          cases updater with
          | imu => exact skipped
          | motor other =>
              rw [Simulation.taken, filterMap_sampleFor?]
              split
              · rename_i same
                subst same
                have every := beyond (List.nodup_cons.mp
                  (orderly.nodup _ rfl)).1
                refine ⟨List.pairwise_cons.mpr ⟨every, increasing⟩,
                  List.forall_mem_cons.mpr ⟨le_rfl, since⟩, fun absent => ?_⟩
                exact absurd List.mem_cons_self absent
              · exact skipped

theorem onward (motor : BalanceMotor) {sim : Simulation}
    (orderly : Orderly sim) {meetings : List Meeting}
    (grows : mainThread.Admits Grows sim meetings) :
    Onward motor sim ((samplesFor motor sim meetings).map Sample.time) := by
  induction meetings generalizing sim with
  | nil =>
      refine ⟨List.Pairwise.nil, ?_⟩
      cases sim.point with
      | ended => rfl
      | updating rest => exact ⟨nofun, nofun⟩
  | cons meeting rest ih =>
      rw [samplesFor_cons, List.map_append]
      exact (ih (orderly.happen meeting) grows.2).before orderly grows.1

theorem times_map_update (samples : List Sample) :
    times (samples.map .update) = samples.map Sample.time := by
  rw [times, List.filterMap_map]
  exact congrArg _ List.filterMap_some

theorem offsetAfter_map_update (dir : ℤ) (samples : List Sample) :
    offsetAfter dir (samples.map .update) = 0 := by
  have never : (samples.map MotorEvent.update).foldl givenOffset 0 = 0 := by
    induction samples with
    | nil => rfl
    | cons sample rest ih => exact ih
  rw [offsetAfter, never, mul_zero]

theorem map_update_twoUpdates (before : List Sample) (first second : Sample) :
    (before ++ [first, second]).map .update =
      twoUpdates (before.map .update) first [] second := by
  simp [twoUpdates, throughUpdate]

/-- What a motor takes its next speed from.  It skips a sample at time 0, which
is the time that it is constructed with. -/
def countedFrom (sample : Sample) : ℚ :=
  if sample.time = 0 then 0 else sample.reading

/-- Two samples in a row decide what a motor reports. -/
theorem run_of_two_samples (dir : ℤ) {before : List Sample}
    {first second : Sample}
    (ticking : Ticking ((before ++ [first, second]).map .update)) :
    let motor :=
      WebotsMotor.run dir ((before ++ [first, second]).map .update)
    motor.angle = dir * second.reading ∧
      motor.speed = dir * (second.reading - countedFrom first) /
        (second.time - first.time : ℤ) := by
  have unset := offsetAfter_map_update dir (before ++ [first, second])
  have timeLast := WebotsMotor.timeLast_throughUpdate dir
    (before.map .update) []
    (map_update_twoUpdates before first second ▸ ticking).first.2
  rw [map_update_twoUpdates] at ticking unset ⊢
  constructor
  · have held := WebotsMotor.held_run dir
      (throughUpdate (before.map .update) first [])
    have inForce : offsetAfter dir
        (throughUpdate (before.map .update) first []) = 0 := by
      rw [← unset, twoUpdates, offsetAfter_concat]
      rfl
    rw [twoUpdates, WebotsMotor.run_concat, WebotsMotor.next,
      WebotsMotor.update_of_new ticking.earlier.2
        (timeLast ▸ ticking.follows.ne'), held.sameDir, held.inForce, inForce]
    exact sub_zero _
  · rw [WebotsMotor.speed_twoUpdates dir ticking, unset,
      offsetAfter_map_update, sub_zero, sub_zero, countedFrom, mul_sub]
    split
    · rw [mul_zero]
    · rfl

end Ticking

/-- While the simulator's time goes on, each motor is given samples at ever
later times, whatever the controller does meanwhile; what it reports are the
last sample and the rate between the last two, in radians per millisecond. -/
theorem balance_samples (config : BalanceConfig) (dir : BalanceMotor → ℤ)
    (time : ℕ) (imu : ImuReading) {events : List (ThreadEvent Meeting)}
    (grows : mainThread.Admits Grows (.start dir time imu)
      (events.filterMap ThreadEvent.outside?))
    (motor : BalanceMotor) :
    let samples := samplesFor motor (.start dir time imu)
      (events.filterMap ThreadEvent.outside?)
    let now := ((balance config).exec
      (.start dir time imu, BalanceSys.loopBody config) events).1.motors motor
    now = WebotsMotor.run (dir motor) (samples.map .update) ∧
      Ticking (samples.map .update) ∧
      ∀ before first second, samples = before ++ [first, second] →
        now.angle = dir motor * second.reading ∧
          now.speed = dir motor * (second.reading - countedFrom first) /
            (second.time - first.time : ℤ) := by
  intro samples now
  have orderly : Orderly (.start dir time imu) := by
    constructor
    rintro _ ⟨⟩
    decide
  obtain ⟨increasing, since, _⟩ := onward motor orderly grows
  have ticking : Ticking (samples.map .update) := by
    refine ⟨(times_map_update samples).symm ▸ increasing, ?_⟩
    rw [times_map_update]
    exact fun sampled member =>
      (Int.natCast_nonneg time).trans (since sampled member)
  have motors : now = WebotsMotor.run (dir motor) (samples.map .update) := by
    change ((balance config).exec _ events).1.motors motor = _
    rw [balance_exec, mainThread_motors]
    rfl
  refine ⟨motors, ticking, fun before first second split => ?_⟩
  rw [motors, split]
  exact run_of_two_samples (dir motor) (split ▸ ticking)

theorem balance_samples_of_two_steps :
    let meeting (encoder : ℚ) (stepped : Option ℕ) : Meeting :=
      ⟨encoder, fun _ => 0, fun _ => 0, (7, 9), stepped⟩
    let events : List (ThreadEvent Meeting) :=
      [.turn, .outside (meeting 0 none), .outside (meeting 1 none), .turn,
        .outside (meeting 2 none), .outside (meeting 3 none),
        .outside (meeting 4 none), .outside (meeting 0 (some 64)), .turn,
        .outside (meeting 0 none), .outside (meeting 9 none)]
    let now := ((balance BalanceSys.lqrSim).exec
      (.start (fun _ => -1) 32 ⟨fun _ => 3, fun _ => 3⟩,
        BalanceSys.loopBody BalanceSys.lqrSim) events).1.motors (.wheel 0)
    now.angle = -9 ∧ now.speed = -(1 / 4) := by
  intro meeting events now
  have grows : mainThread.Admits Grows
      (.start (fun _ => -1) 32 ⟨fun _ => 3, fun _ => 3⟩)
      (events.filterMap ThreadEvent.outside?) := by
    refine ⟨nofun, nofun, nofun, nofun, nofun, fun _ time member => ?_,
      nofun, nofun, trivial⟩
    obtain rfl := Option.some.inj member
    decide
  have reports := (balance_samples BalanceSys.lqrSim (fun _ => -1) 32
    ⟨fun _ => 3, fun _ => 3⟩ grows (.wheel 0)).2.2 []
    ⟨32, 1, 7, 9⟩ ⟨64, 9, 7, 9⟩ rfl
  exact ⟨reports.1.trans (by norm_num),
    reports.2.trans (by norm_num [countedFrom])⟩

end RoboBand.App
