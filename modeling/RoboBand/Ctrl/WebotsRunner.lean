import RoboBand.Data.Barrier
import RoboBand.Data.FloatFormat
import RoboBand.Data.Machine
import RoboBand.Util.Math

namespace RoboBand.Ctrl

open RoboBand.Data RoboBand.Util

/-! `Runner::thread_func` of the build for the simulator.  Every look at what
the threads share is a step of its own. -/

/-- The members of `io::Webots` that the threads share. -/
structure Webots where
  time : ℤ
  bindRunnerNum : ℕ
  syncPoint : Option Barrier
  deriving DecidableEq

/-- Whether somebody who waits with this token may go on. -/
def Webots.passed (webots : Webots) (token : ℕ) : Bool :=
  webots.syncPoint.any fun barrier => barrier.phase != token

inductive RunnerPoint where
  | idle
  | entry
  | loop
  | look
  | arrive
  | wait (token : ℕ)
  | check
  | task
  | finished
  deriving DecidableEq

structure Runner where
  running : Bool
  timeSet : ℤ
  point : RunnerPoint
  deriving DecidableEq

/-- `time_set += cycle_ms`: the `int` becomes a float, the sum is one, and what
it is without its fraction is stored. -/
def advance (cycleMs : ℚ) (timeSet : ℤ) : ℤ :=
  (toInt (binary32.round (binary32.round timeSet + cycleMs))).toInt

namespace Runner

def new : Runner where
  running := false
  timeSet := 0
  point := .idle

/-- The runner after its next step.  A thread that has nothing to do or is held
at the barrier stays where it is. -/
def next (cycleMs : ℚ) (webots : Webots) (runner : Runner) : Runner :=
  match runner.point with
  | .idle => runner
  | .entry => { runner with timeSet := webots.time, point := .loop }
  | .loop =>
      if runner.running then
        { runner with
          timeSet := advance cycleMs runner.timeSet
          point := .look }
      else
        { runner with point := .finished }
  | .look =>
      { runner with
        point := if webots.syncPoint.isSome then .arrive else .check }
  | .arrive =>
      match webots.syncPoint with
      | none => runner
      | some barrier => { runner with point := .wait barrier.phase }
  | .wait token =>
      if webots.passed token then { runner with point := .check } else runner
  | .check =>
      { runner with
        point := if webots.time ≤ runner.timeSet then .task else .loop }
  | .task => { runner with point := .loop }
  | .finished => runner

/-- What the step leaves of the barrier. -/
def sync (webots : Webots) (runner : Runner) : Option Barrier :=
  match runner.point with
  | .arrive => webots.syncPoint.map .arrive
  | _ => webots.syncPoint

/-- The thread alone, among whatever the others do to the simulator's state.
An output is a run of `task`. -/
def thread (cycleMs : ℚ) : Machine Runner Webots Unit where
  step runner webots :=
    (runner.next cycleMs webots, if runner.point = .task then [()] else [])

/-- One iteration of the loop: `time` is what the simulator shows behind the
barrier. -/
def turns (cycleMs : ℚ) : Machine ℤ ℤ Unit where
  step timeSet time :=
    let timeSet := advance cycleMs timeSet
    (timeSet, if time ≤ timeSet then [()] else [])

/-- What a runner meets in an iteration that is synchronised with a step of
the simulator. -/
inductive SyncedTurn (cycleMs : ℚ) (timeSet time : ℤ) : List Webots → Prop where
  | mk (barrier : Barrier) (test look arrive : Webots)
      (blocked : List Webots) (released shown : Webots) (run : List Webots)
      (found : look.syncPoint.isSome = true)
      (arrives : arrive.syncPoint = some barrier)
      (waits : ∀ webots ∈ blocked, webots.passed barrier.phase = false)
      (opens : released.passed barrier.phase = true)
      (shows : shown.time = time)
      (runs : run.length =
        if time ≤ advance cycleMs timeSet then 1 else 0) :
      SyncedTurn cycleMs timeSet time
        ([test, look, arrive] ++ blocked ++ [released, shown] ++ run)

inductive SyncedRun (cycleMs : ℚ) : ℤ → List ℤ → List Webots → Prop where
  | done (timeSet : ℤ) : SyncedRun cycleMs timeSet [] []
  | turn {timeSet time : ℤ} {times : List ℤ} {views rest : List Webots}
      (first : SyncedTurn cycleMs timeSet time views)
      (later : SyncedRun cycleMs (advance cycleMs timeSet) times rest) :
      SyncedRun cycleMs timeSet (time :: times) (views ++ rest)

section Turn

variable (cycleMs : ℚ)

theorem thread_blocked (timeSet : ℤ) {token : ℕ} {blocked : List Webots}
    (waits : ∀ webots ∈ blocked, webots.passed token = false) :
    (thread cycleMs).exec ⟨true, timeSet, .wait token⟩ blocked =
        ⟨true, timeSet, .wait token⟩ ∧
      (thread cycleMs).outputs ⟨true, timeSet, .wait token⟩ blocked = [] := by
  induction blocked with
  | nil => exact ⟨rfl, rfl⟩
  | cons webots rest ih =>
      obtain ⟨here, later⟩ := List.forall_mem_cons.mp waits
      have held : (thread cycleMs).step ⟨true, timeSet, .wait token⟩ webots =
          (⟨true, timeSet, .wait token⟩, []) := by
        simp [thread, next, here]
      rw [Machine.exec_cons, Machine.outputs_cons, held]
      exact ih later

theorem thread_enter {barrier : Barrier} {look arrive : Webots}
    (found : look.syncPoint.isSome = true)
    (arrives : arrive.syncPoint = some barrier) (timeSet : ℤ)
    (test : Webots) :
    (thread cycleMs).exec ⟨true, timeSet, .loop⟩ [test, look, arrive] =
        ⟨true, advance cycleMs timeSet, .wait barrier.phase⟩ ∧
      (thread cycleMs).outputs ⟨true, timeSet, .loop⟩ [test, look, arrive] =
        [] := by
  simp [thread, next, found, arrives]

theorem thread_leave {token : ℕ} {released : Webots}
    (opens : released.passed token = true) (timeSet : ℤ) (shown : Webots) :
    (thread cycleMs).exec ⟨true, timeSet, .wait token⟩ [released, shown] =
        ⟨true, timeSet,
          if shown.time ≤ timeSet then .task else .loop⟩ ∧
      (thread cycleMs).outputs ⟨true, timeSet, .wait token⟩
        [released, shown] = [] := by
  simp [thread, next, opens]

theorem thread_run {time timeSet : ℤ} {run : List Webots}
    (runs : run.length = if time ≤ timeSet then 1 else 0) :
    (thread cycleMs).exec
        ⟨true, timeSet, if time ≤ timeSet then .task else .loop⟩ run =
        ⟨true, timeSet, .loop⟩ ∧
      (thread cycleMs).outputs
        ⟨true, timeSet, if time ≤ timeSet then .task else .loop⟩ run =
        if time ≤ timeSet then [()] else [] := by
  by_cases reached : time ≤ timeSet
  · simp only [if_pos reached] at runs ⊢
    obtain ⟨webots, rfl⟩ := List.length_eq_one_iff.mp runs
    exact ⟨rfl, rfl⟩
  · simp only [if_neg reached] at runs ⊢
    obtain rfl := List.length_eq_zero_iff.mp runs
    exact ⟨rfl, rfl⟩

end Turn

variable {cycleMs : ℚ}

/-- The thread refines the loop of whole iterations. -/
theorem thread_syncedTurn {timeSet time : ℤ} {views : List Webots}
    (turn : SyncedTurn cycleMs timeSet time views) :
    (thread cycleMs).exec ⟨true, timeSet, .loop⟩ views =
        ⟨true, ((turns cycleMs).step timeSet time).1, .loop⟩ ∧
      (thread cycleMs).outputs ⟨true, timeSet, .loop⟩ views =
        ((turns cycleMs).step timeSet time).2 := by
  obtain ⟨barrier, test, look, arrive, blocked, released, shown, run, found,
    arrives, waits, opens, rfl, runs⟩ := turn
  obtain ⟨entered, quiet⟩ := thread_enter cycleMs found arrives timeSet test
  obtain ⟨held, silent⟩ := thread_blocked cycleMs (advance cycleMs timeSet)
    waits
  obtain ⟨left, still⟩ := thread_leave cycleMs opens (advance cycleMs timeSet)
    shown
  obtain ⟨ran, tasks⟩ := thread_run cycleMs runs
  simp only [Machine.exec_append, Machine.outputs_append, entered, held, left,
    quiet, silent, still, List.nil_append]
  exact ⟨ran, tasks⟩

theorem thread_syncedRun {timeSet : ℤ} {times : List ℤ} {views : List Webots}
    (run : SyncedRun cycleMs timeSet times views) :
    (thread cycleMs).outputs ⟨true, timeSet, .loop⟩ views =
      (turns cycleMs).outputs timeSet times := by
  induction run with
  | done timeSet => rfl
  | turn first later ih =>
      obtain ⟨state, tasks⟩ := thread_syncedTurn first
      rw [Machine.outputs_append, state, tasks, Machine.outputs_cons]
      exact congrArg _ ih

/-! With a cycle of whole steps the set time is never behind the simulator's,
however long the cycle is, as long as the sums of floats are exact. -/

/-- A time that is the same as a float and as an `int`. -/
structure Exact (time : ℤ) : Prop where
  float : binary32.Representable time
  int : FitsInt time

def SumsExact (time : ℤ) (cycle count : ℕ) : Prop :=
  ∀ index < count, Exact (time + index * cycle) ∧
    Exact (time + (index + 1 : ℕ) * cycle)

theorem exact_of_abs_le {time : ℤ} (small : |time| ≤ 2 ^ 24) : Exact time := by
  obtain ⟨low, high⟩ := abs_le.mp small
  exact ⟨FloatFormat.representable_intCast (by decide) small,
    by omega, by omega⟩

/-- Up to four and a half hours nothing is rounded. -/
theorem sumsExact_of_le {time : ℤ} {cycle count : ℕ} (low : -2 ^ 24 ≤ time)
    (high : time + count * cycle ≤ 2 ^ 24) : SumsExact time cycle count := by
  have within : ∀ index ≤ count, Exact (time + index * cycle) := by
    intro index before
    have sooner : index * cycle ≤ count * cycle :=
      Nat.mul_le_mul_right cycle before
    have sum : (index * cycle : ℤ) ≤ count * cycle := by exact_mod_cast sooner
    have nonneg : (0 : ℤ) ≤ index * cycle := by positivity
    exact exact_of_abs_le (abs_le.mpr ⟨by omega, by omega⟩)
  exact fun index before => ⟨within index before.le, within _ before⟩

theorem SumsExact.tail {time : ℤ} {cycle count : ℕ}
    (sums : SumsExact time cycle (count + 1)) :
    SumsExact (time + cycle) cycle count := by
  intro index before
  have later := sums (index + 1) (Nat.succ_lt_succ before)
  have here : ∀ index : ℕ, time + cycle + index * cycle =
      time + (index + 1 : ℕ) * cycle := by
    intro index
    push_cast
    ring
  rwa [here, here]

theorem advance_of_exact {timeSet : ℤ} {cycle : ℕ} (here : Exact timeSet)
    (next : Exact (timeSet + cycle)) :
    advance cycle timeSet = timeSet + cycle := by
  have whole : ((timeSet : ℚ) + (cycle : ℚ)) = ((timeSet + cycle : ℤ) : ℚ) := by
    push_cast
    rfl
  rw [advance, FloatFormat.round_of_representable here.float, whole,
    FloatFormat.round_of_representable next.float]
  have fits : FitsInt (truncate (timeSet + cycle : ℤ)) := by
    rw [truncate_intCast]
    exact next.int
  rw [toInt_toInt fits, truncate_intCast]

theorem SumsExact.advance {timeSet : ℤ} {cycle count : ℕ}
    (sums : SumsExact timeSet cycle (count + 1)) :
    advance cycle timeSet = timeSet + cycle := by
  obtain ⟨here, next⟩ := sums 0 count.succ_pos
  rw [Nat.cast_zero, zero_mul, add_zero] at here
  rw [zero_add, Nat.cast_one, one_mul] at next
  exact advance_of_exact here next

def stepTimes (step : ℕ) (time : ℤ) (count : ℕ) : List ℤ :=
  (List.range count).map fun index : ℕ => time + ((index : ℤ) + 1) * step

theorem stepTimes_succ (step : ℕ) (time : ℤ) (count : ℕ) :
    stepTimes step time (count + 1) =
      (time + step) :: stepTimes step (time + step) count := by
  rw [stepTimes, List.range_succ_eq_map, List.map_cons, List.map_map]
  congr 1
  · simp
  · refine List.map_congr_left fun index _ => ?_
    simp only [Function.comp_apply, Nat.succ_eq_add_one]
    push_cast
    ring

theorem turns_of_sumsExact {step ratio : ℕ} (positive : 0 < ratio)
    {time timeSet : ℤ} (ahead : time ≤ timeSet) {count : ℕ}
    (sums : SumsExact timeSet (ratio * step) count) :
    ((turns (ratio * step : ℕ)).outputs timeSet
        (stepTimes step time count)).length = count ∧
      (turns (ratio * step : ℕ)).exec timeSet (stepTimes step time count) =
        timeSet + count * (ratio * step : ℕ) := by
  induction count generalizing time timeSet with
  | zero => exact ⟨rfl, by rw [Nat.cast_zero, zero_mul, add_zero]; rfl⟩
  | succ count ih =>
      have cycle : step ≤ ratio * step := Nat.le_mul_of_pos_left step positive
      have reached : time + step ≤ timeSet + (ratio * step : ℕ) := by omega
      have turn : (turns (ratio * step : ℕ)).step timeSet (time + step) =
          (timeSet + (ratio * step : ℕ), [()]) := by
        simp only [turns, sums.advance, if_pos reached]
      obtain ⟨tasks, after⟩ := ih reached sums.tail
      rw [stepTimes_succ, Machine.outputs_cons, Machine.exec_cons, turn,
        List.length_append, tasks, after]
      refine ⟨Nat.add_comm 1 count, ?_⟩
      push_cast
      ring

theorem outputs_thread {cycleMs : ℚ} (timeSet : ℤ) {times : List ℤ}
    {start : Webots} {views : List Webots}
    (run : SyncedRun cycleMs start.time times views) :
    (thread cycleMs).outputs ⟨true, timeSet, .entry⟩ (start :: views) =
      (turns cycleMs).outputs start.time times := by
  have first : (thread cycleMs).step ⟨true, timeSet, .entry⟩ start =
      (⟨true, start.time, .loop⟩, []) := rfl
  rw [Machine.outputs_cons, first, List.nil_append, thread_syncedRun run]

theorem length_thread {step ratio : ℕ} (positive : 0 < ratio) (timeSet : ℤ)
    {count : ℕ} {start : Webots} {views : List Webots}
    (run : SyncedRun (ratio * step : ℕ) start.time
      (stepTimes step start.time count) views)
    (sums : SumsExact start.time (ratio * step) count) :
    ((thread (ratio * step : ℕ)).outputs ⟨true, timeSet, .entry⟩
      (start :: views)).length = count := by
  rw [outputs_thread timeSet run]
  exact (turns_of_sumsExact positive le_rfl sums).1

/-- While no sum is rounded the task is run in every step of the simulator, and
not once in a cycle: the comparison of the two times is the wrong way round. -/
theorem thread_tasks_iff {step ratio : ℕ} (positive : 0 < ratio) (timeSet : ℤ)
    (count : ℕ) (start : Webots) (views : List Webots)
    (run : SyncedRun (ratio * step : ℕ) start.time
      (stepTimes step start.time count) views)
    (sums : SumsExact start.time (ratio * step) count) :
    ((thread (ratio * step : ℕ)).outputs ⟨true, timeSet, .entry⟩
        (start :: views)).length = count / ratio ↔
      ratio = 1 ∨ count = 0 := by
  rw [length_thread positive timeSet run sums]
  constructor
  · intro floor
    by_contra fails
    obtain ⟨slower, some⟩ := not_or.mp fails
    have fewer : count / ratio < count :=
      Nat.div_lt_self (Nat.pos_of_ne_zero some) (by omega)
    omega
  · rintro (rfl | rfl)
    · exact (Nat.div_one count).symm
    · exact (Nat.zero_div ratio).symm

/-- A state of the simulator with one runner, before and after its first
step. -/
def beforeStep : Webots := ⟨0, 1, some ⟨2, 0, 0⟩⟩

def afterStep : Webots := ⟨32, 1, some ⟨2, 0, 1⟩⟩

def oneStep : List Webots :=
  [beforeStep, beforeStep, beforeStep, afterStep, afterStep, afterStep]

theorem oneStep_exact {ratio : ℕ} (few : ratio ≤ 2) :
    SumsExact beforeStep.time (ratio * 32) 1 := by
  refine sumsExact_of_le (by decide) ?_
  change 0 + ((1 : ℕ) : ℤ) * ((ratio * 32 : ℕ) : ℤ) ≤ 2 ^ 24
  omega

theorem oneStep_synced {ratio : ℕ} (positive : 0 < ratio) (few : ratio ≤ 2) :
    SyncedRun (ratio * 32 : ℕ) beforeStep.time
      (stepTimes 32 beforeStep.time 1) oneStep := by
  refine .turn (.mk ⟨2, 0, 0⟩ beforeStep beforeStep beforeStep [] afterStep
    afterStep [afterStep] rfl rfl nofun rfl rfl ?_) (.done _)
  have reached : beforeStep.time + ((0 : ℕ) + 1) * (32 : ℕ) ≤
      beforeStep.time + (ratio * 32 : ℕ) := by
    change (0 : ℤ) + (0 + 1) * 32 ≤ 0 + (ratio * 32 : ℕ)
    omega
  rw [(oneStep_exact few).advance]
  exact (if_pos reached).symm

theorem thread_runs_task_too_often :
    SyncedRun (2 * 32 : ℕ) beforeStep.time (stepTimes 32 beforeStep.time 1)
        oneStep ∧
      ((thread (2 * 32 : ℕ)).outputs ⟨true, 0, .entry⟩
        (beforeStep :: oneStep)).length ≠ 1 / 2 :=
  ⟨oneStep_synced (by decide) le_rfl, by
    rw [length_thread (by decide) 0 (oneStep_synced (by decide) le_rfl)
      (oneStep_exact le_rfl)]
    decide⟩

theorem thread_tasks_same_period :
    ((thread (1 * 32 : ℕ)).outputs ⟨true, 0, .entry⟩
      (beforeStep :: oneStep)).length = 1 / 1 :=
  (thread_tasks_iff (by decide) 0 1 beforeStep oneStep
    (oneStep_synced (by decide) (by decide)) (oneStep_exact (by decide))).mpr
      (.inl rfl)

/-! From then on the sums are rounded: with a cycle of a millisecond the set
time stays where it is, and the simulator's leaves it behind. -/

theorem advance_stuck : advance (1 * 1 : ℕ) (2 ^ 24) = 2 ^ 24 := by
  decide +kernel

theorem turns_stuck {time : ℤ} (late : 2 ^ 24 ≤ time) (count : ℕ) :
    (turns (1 * 1 : ℕ)).outputs (2 ^ 24) (stepTimes 1 time count) = [] := by
  induction count generalizing time with
  | zero => rfl
  | succ count ih =>
      have behind : ¬ time + (1 : ℕ) ≤ 2 ^ 24 := by omega
      have turn : (turns (1 * 1 : ℕ)).step (2 ^ 24) (time + (1 : ℕ)) =
          (2 ^ 24, []) := by
        simp only [turns, advance_stuck, if_neg behind]
      rw [stepTimes_succ, Machine.outputs_cons, turn, List.nil_append]
      exact ih (by omega)

theorem stepTimes_add (step : ℕ) (time : ℤ) (first second : ℕ) :
    stepTimes step time (first + second) =
      stepTimes step time first ++
        stepTimes step (time + first * step) second := by
  rw [stepTimes, List.range_add, List.map_append, List.map_map]
  congr 1
  refine List.map_congr_left fun index _ => ?_
  simp only [Function.comp_apply]
  push_cast
  ring

/-- However long the simulation goes on, the task is not run any more. -/
theorem thread_stuck (timeSet : ℤ) (more : ℕ) {start : Webots}
    {views : List Webots} (begins : start.time = 0)
    (run : SyncedRun (1 * 1 : ℕ) start.time
      (stepTimes 1 start.time (2 ^ 24 + more)) views) :
    ((thread (1 * 1 : ℕ)).outputs ⟨true, timeSet, .entry⟩
      (start :: views)).length = 2 ^ 24 := by
  rw [outputs_thread timeSet run, begins, stepTimes_add, Machine.outputs_append,
    List.length_append]
  have sums : SumsExact 0 (1 * 1) (2 ^ 24) :=
    sumsExact_of_le (by decide) (by decide)
  obtain ⟨tasks, after⟩ := turns_of_sumsExact one_pos le_rfl sums
  have full : (0 : ℤ) + (2 ^ 24 : ℕ) * (1 * 1 : ℕ) = 2 ^ 24 := by decide
  rw [tasks, after, full, turns_stuck (by decide), List.length_nil,
    Nat.add_zero]

end Runner

end RoboBand.Ctrl
