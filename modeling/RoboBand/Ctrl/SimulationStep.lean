import RoboBand.Ctrl.LockstepInvariant

namespace RoboBand.Ctrl.Lockstep

open RoboBand.Data

variable {n : ℕ}

/-! How often the runners run their tasks between two steps of the simulator. -/

/-- How often each task has been run since the last simulation step. -/
def count (counts : Fin n → ℕ) : Output n → Fin n → ℕ
  | .simulated => fun _ => 0
  | .task index => Function.update counts index (counts index + 1)

def tasksSince (outputs : List (Output n)) : Fin n → ℕ :=
  outputs.foldl count fun _ => 0

/-- A runner here has been let past the barrier, or went past it, and has its
turn still to finish. -/
def InTurn (webots : Webots) : RunnerPoint → Prop
  | .check | .task => True
  | .wait token => webots.passed token = true
  | _ => False

/-- The simulator is stepped when no runner has a turn to finish, and a runner
that has run its task since then does not find `sync_point` null. -/
def Prompt (both : State n × (Fin n → ℕ)) : Event n → Prop
  | .main _ _ => both.1.main = .simulate →
      ∀ index, ¬ InTurn both.1.webots (both.1.runners index).point
  | .runner index => (both.1.runners index).point = .look →
      both.1.webots.syncPoint = none → both.2 index = 0

/-- The simulator has been stepped, and the main thread has not got past the
barrier since. -/
def Pending (webots : Webots) : MainPoint → Prop
  | .store _ | .arrive => True
  | .wait token => webots.passed token = false
  | _ => False

structure Paced (state : State n) (counts : Fin n → ℕ) : Prop where
  once : ∀ index, counts index ≤ 1
  fresh : ∀ index, InTurn state.webots (state.runners index).point →
    counts index = 0
  pending : Pending state.webots state.main → ∀ index,
    counts index = 0 ∧ ¬ InTurn state.webots (state.runners index).point

section Paced

variable {state next : State n} {counts : Fin n → ℕ}

/-- Steps that give nobody a turn. -/
theorem Paced.calm (paced : Paced state counts)
    (turns : ∀ index, InTurn next.webots (next.runners index).point →
      InTurn state.webots (state.runners index).point)
    (pending : Pending next.webots next.main →
      Pending state.webots state.main) : Paced next counts where
  once := paced.once
  fresh := fun index turn => paced.fresh index (turns index turn)
  pending := fun still index =>
    ⟨(paced.pending (pending still) index).1,
      mt (turns index) (paced.pending (pending still) index).2⟩

theorem paced_of_zero (zero : ∀ index, counts index = 0)
    (pending : Pending next.webots next.main → ∀ index,
      ¬ InTurn next.webots (next.runners index).point) :
    Paced next counts where
  once := fun index => (zero index).le.trans (Nat.zero_le 1)
  fresh := fun index _ => zero index
  pending := fun still index => ⟨zero index, pending still index⟩

theorem passed_congr {first second : Webots}
    (sync : first.syncPoint = second.syncPoint) (token : ℕ) :
    first.passed token = second.passed token := by
  rw [Webots.passed, Webots.passed, sync]

theorem inTurn_congr {first second : Webots}
    (passed : ∀ token, first.passed token = second.passed token)
    (point : RunnerPoint) : InTurn first point ↔ InTurn second point := by
  cases point with
  | wait token =>
      change first.passed token = true ↔ second.passed token = true
      rw [passed]
  | _ => exact Iff.rfl

theorem pending_congr {first second : Webots}
    (passed : ∀ token, first.passed token = second.passed token)
    (point : MainPoint) : Pending first point ↔ Pending second point := by
  cases point with
  | wait token =>
      change first.passed token = false ↔ second.passed token = false
      rw [passed]
  | _ => exact Iff.rfl

theorem Pending.inStep {webots : Webots} {point : MainPoint}
    (pending : Pending webots point) : point.InStep := by
  cases point <;> trivial

/-- The last arrival ends the phase that everybody waits for. -/
theorem Wired.pending_of_last {barrier : Barrier} (wired : Wired state)
    (found : state.webots.syncPoint = some barrier)
    (last : barrier.arrived + 1 = barrier.expected) {index : Fin n}
    (arriving : state.arriving (some index)) :
    state.main = .wait barrier.phase ∧
      Pending state.webots state.main := by
  have missing := State.waiting_of_arriving arriving
  have held := (wired.tally barrier found).others_wait last missing none
    (Option.some_ne_none index).symm
  have main : state.main = .wait barrier.phase :=
    MainPoint.token_eq_some.mp held
  refine ⟨main, ?_⟩
  rw [main]
  simp [Pending, Webots.passed, found]

theorem passed_arrive_early {barrier : Barrier} {first second : Webots}
    (found : first.syncPoint = some barrier)
    (early : barrier.arrived + 1 ≠ barrier.expected)
    (sync : second.syncPoint = some barrier.arrive) (token : ℕ) :
    second.passed token = first.passed token := by
  rw [Webots.passed, Webots.passed, sync, found, Barrier.arrive_early early]
  rfl

theorem passed_arrive_last {barrier : Barrier} {webots : Webots}
    (last : barrier.arrived + 1 = barrier.expected)
    (sync : webots.syncPoint = some barrier.arrive) :
    webots.passed barrier.phase = true := by
  rw [Webots.passed, sync, Barrier.arrive_last last]
  simp

/-- A turn begins where the runner finds no barrier, or has been let past
it. -/
theorem inTurn_of_next {cycleMs : ℚ} {webots : Webots} {runner : Runner}
    (turn : InTurn webots (runner.next cycleMs webots).point) :
    InTurn webots runner.point ∨
      runner.point = .look ∧ webots.syncPoint = none := by
  cases point : runner.point with
  | check | task => exact .inl trivial
  | look =>
      cases found : webots.syncPoint with
      | none => exact .inr ⟨rfl, rfl⟩
      | some barrier => simp [Runner.next, point, found, InTurn] at turn
  | arrive =>
      cases found : webots.syncPoint with
      | none => simp [Runner.next, point, found, InTurn] at turn
      | some barrier =>
          simp [Runner.next, point, found, InTurn, Webots.passed] at turn
  | wait token =>
      cases passed : webots.passed token with
      | true => exact .inl passed
      | false => simp [Runner.next, point, passed, InTurn] at turn
  | loop =>
      simp only [Runner.next, point] at turn
      split at turn <;> exact turn.elim
  | idle | entry | finished => simp [Runner.next, point, InTurn] at turn

section Runner

variable (cycleMs : Fin n → ℚ) {index : Fin n}

theorem point_runnerStep (other : Fin n) :
    ((runnerStep cycleMs state index).1.runners other).point =
      if other = index then
        ((state.runners index).next (cycleMs index) state.webots).point
      else (state.runners other).point := by
  rw [runners_runnerStep]
  split <;> rfl

theorem Paced.calm_runner (paced : Paced state counts)
    (passed : ∀ token, (runnerStep cycleMs state index).1.webots.passed token =
      state.webots.passed token)
    (held : (state.runners index).point = .look →
      state.webots.syncPoint ≠ none) :
    Paced (runnerStep cycleMs state index).1 counts := by
  refine paced.calm (fun other turn => ?_) (pending_congr passed _).mp
  have here := (inTurn_congr passed _).mp turn
  rw [point_runnerStep] at here
  split at here
  · rename_i same
    rw [same]
    obtain before | ⟨look, missing⟩ := inTurn_of_next here
    · exact before
    · exact absurd missing (held look)
  · exact here

theorem passed_runnerStep
    (sync : (state.runners index).sync state.webots = state.webots.syncPoint)
    (token : ℕ) :
    (runnerStep cycleMs state index).1.webots.passed token =
      state.webots.passed token :=
  passed_congr sync token

theorem Paced.task (paced : Paced state counts)
    (task : (state.runners index).point = .task) :
    Paced (runnerStep cycleMs state index).1
      (Function.update counts index (counts index + 1)) := by
  have sync : (state.runners index).sync state.webots =
      state.webots.syncPoint := by
    simp [Runner.sync, task]
  have passed := passed_runnerStep cycleMs sync
  have turn : InTurn state.webots (state.runners index).point := by
    rw [task]
    trivial
  refine ⟨fun other => ?_, fun other here => ?_, fun still => ?_⟩
  · rw [Function.update_apply, paced.fresh index turn]
    split
    · exact le_rfl
    · exact paced.once other
  · have before := (inTurn_congr passed _).mp here
    rw [point_runnerStep] at before
    split at before
    · simp [Runner.next, task, InTurn] at before
    · rename_i differs
      rw [Function.update_of_ne differs]
      exact paced.fresh other before
  · have before := (pending_congr passed _).mp still
    exact absurd turn (paced.pending before index).2

theorem Paced.skip (wired : Wired state) (paced : Paced state counts)
    (look : (state.runners index).point = .look)
    (missing : state.webots.syncPoint = none) (zero : counts index = 0) :
    Paced (runnerStep cycleMs state index).1 counts := by
  have sync : (state.runners index).sync state.webots =
      state.webots.syncPoint := by
    simp [Runner.sync, look]
  have passed := passed_runnerStep cycleMs sync
  refine ⟨paced.once, fun other here => ?_, fun still => ?_⟩
  · have before := (inTurn_congr passed _).mp here
    rw [point_runnerStep] at before
    split at before
    · rename_i same
      exact same ▸ zero
    · exact paced.fresh other before
  · have inStep := ((pending_congr passed _).mp still).inStep
    exact absurd missing (wired.created inStep)

theorem Paced.arrive {barrier : Barrier} (wired : Wired state)
    (paced : Paced state counts)
    (arriving : (state.runners index).point = .arrive)
    (found : state.webots.syncPoint = some barrier) :
    Paced (runnerStep cycleMs state index).1 counts := by
  have sync : (runnerStep cycleMs state index).1.webots.syncPoint =
      some barrier.arrive := by
    simp [syncPoint_runnerStep, Runner.sync, arriving, found]
  by_cases last : barrier.arrived + 1 = barrier.expected
  · obtain ⟨main, pending⟩ := wired.pending_of_last found last arriving
    refine paced_of_zero (fun other => (paced.pending pending other).1) ?_
    intro still
    change Pending _ state.main at still
    rw [main] at still
    exact absurd ((passed_arrive_last last sync).symm.trans still)
      Bool.true_eq_false.mp
  · refine paced.calm_runner cycleMs (passed_arrive_early found last sync) ?_
    simp [arriving]

theorem paced_runnerStep (wired : Wired state) (paced : Paced state counts)
    (prompt : Prompt (state, counts) (.runner index)) :
    Paced (runnerStep cycleMs state index).1
      ((runnerStep cycleMs state index).2.foldl count counts) := by
  have quiet : (state.runners index).point ≠ .task →
      (runnerStep cycleMs state index).2 = [] := fun other => if_neg other
  cases point : (state.runners index).point with
  | task =>
      have output : (runnerStep cycleMs state index).2 = [.task index] :=
        if_pos point
      rw [output]
      exact paced.task cycleMs point
  | look =>
      rw [quiet (by simp [point])]
      cases found : state.webots.syncPoint with
      | none => exact paced.skip cycleMs wired point found (prompt point found)
      | some barrier =>
          refine paced.calm_runner cycleMs (passed_runnerStep cycleMs ?_) ?_
          · simp [Runner.sync, point]
          · simp [found]
  | arrive =>
      rw [quiet (by simp [point])]
      cases found : state.webots.syncPoint with
      | none =>
          refine paced.calm_runner cycleMs (passed_runnerStep cycleMs ?_) ?_
          · simp [Runner.sync, point, found]
          · simp [point]
      | some barrier => exact paced.arrive cycleMs wired point found
  | idle | entry | loop | wait token | check | finished =>
      rw [quiet (by simp [point])]
      refine paced.calm_runner cycleMs (passed_runnerStep cycleMs ?_) ?_
      · simp [Runner.sync, point]
      · simp [point]

end Runner

section Main

theorem Paced.calm_main (paced : Paced state counts)
    (passed : ∀ token, next.webots.passed token = state.webots.passed token)
    (turns : ∀ index, InTurn state.webots (next.runners index).point →
      InTurn state.webots (state.runners index).point)
    (pending : Pending next.webots next.main →
      Pending state.webots state.main) : Paced next counts :=
  paced.calm (fun index turn => turns index ((inTurn_congr passed _).mp turn))
    pending

theorem inTurn_run {webots : Webots} {index : Fin n} (other : Fin n)
    (turn : InTurn webots ((state.run index).runners other).point) :
    InTurn webots (state.runners other).point := by
  obtain entry | same := state.point_run index other
  · rw [entry] at turn
    exact turn.elim
  · rwa [same] at turn

theorem inTurn_clear {webots : Webots} {index : Fin n} (other : Fin n)
    (turn : InTurn webots ((state.clear index).runners other).point) :
    InTurn webots (state.runners other).point := by
  rwa [State.point_clear] at turn

theorem Paced.create (wired : Wired state) (paced : Paced state counts)
    (missing : state.webots.syncPoint = none)
    (runners : next.runners = state.runners)
    (main : ¬ Pending next.webots next.main) : Paced next counts := by
  refine paced.calm (fun index turn => ?_) fun pending => absurd pending main
  rw [runners] at turn
  cases point : (state.runners index).point with
  | wait token =>
      have waits : state.waiting (some index) = some token :=
        tokenOf_eq_some.mpr point
      exact nomatch (wired.nobody missing _).symm.trans waits
  | _ =>
      rw [point] at turn
      exact turn

theorem Paced.meet {barrier : Barrier} (paced : Paced state counts)
    (found : state.webots.syncPoint = some barrier)
    (pending : Pending state.webots state.main)
    (sync : next.webots.syncPoint = some barrier.arrive)
    (main : next.main = .wait barrier.phase)
    (runners : next.runners = state.runners) : Paced next counts := by
  by_cases last : barrier.arrived + 1 = barrier.expected
  · refine paced_of_zero (fun index => (paced.pending pending index).1) ?_
    intro still
    rw [main] at still
    exact absurd ((passed_arrive_last last sync).symm.trans still)
      Bool.true_eq_false.mp
  · refine paced.calm_main (passed_arrive_early found last sync) ?_
      fun _ => pending
    rw [runners]
    exact fun _ turn => turn

theorem MainTurn.paced (wired : Wired state) (paced : Paced state counts)
    {running : Bool} {result : ℤ} {after : State n × List (Output n)}
    (turn : MainTurn state running result after)
    (prompt : Prompt (state, counts) (.main running result)) :
    Paced after.1 (after.2.foldl count counts) := by
  cases turn with
  | start index main =>
      exact paced.calm_main
        (passed_congr (congrArg _ (state.run_webots index))) inTurn_run
        False.elim
  | create main =>
      cases found : state.webots.syncPoint with
      | none => exact paced.create wired found rfl id
      | some barrier =>
          exact paced.calm_main (passed_congr found.symm) (fun _ => id)
            False.elim
  | simulate main => exact paced_of_zero (fun _ => rfl) fun _ => prompt main
  | store value main more =>
      refine paced.calm_main (fun _ => rfl) (fun _ => id) fun _ => ?_
      rw [main]
      trivial
  | arrive barrier main found =>
      have pending : Pending state.webots state.main := by
        rw [main]
        trivial
      exact paced.meet found pending rfl rfl rfl
  | stop index main =>
      exact paced.calm_main (fun _ => rfl) inTurn_clear False.elim
  | held => exact paced
  | bind index main inside | bound index main outside
  | started index main outside | enter main going | quit main stopped
  | finish main | leave token main passed | stopped index main outside
  | join index main ended =>
      exact paced.calm_main (fun _ => rfl) (fun _ => id) False.elim

end Main

end Paced

/-- At any time of a prompt run every task has been run at most once since the
last simulation step, or since the runners were started. -/
theorem tasksSince_le_one (cycleMs : Fin n → ℚ) (time : ℤ)
    (events : List (Event n))
    (prompt : ((lockstep cycleMs).observed count).Admits Prompt
      (.new n time, fun _ => 0) events) (index : Fin n) :
    tasksSince ((lockstep cycleMs).outputs (.new n time) events) index ≤ 1 := by
  have kept : ∀ (both : State n × (Fin n → ℕ)) (event : Event n),
      Wired both.1 ∧ Paced both.1 both.2 → Prompt both event →
      Wired (((lockstep cycleMs).observed count).step both event).1.1 ∧
        Paced (((lockstep cycleMs).observed count).step both event).1.1
          (((lockstep cycleMs).observed count).step both event).1.2 := by
    rintro ⟨state, counts⟩ event ⟨wired, paced⟩ prompt
    refine ⟨wired_step cycleMs wired event, ?_⟩
    cases event with
    | main running result =>
        exact (mainTurn state running result).paced wired paced prompt
    | runner index => exact paced_runnerStep cycleMs wired paced prompt
  have initially : Paced (State.new n time) fun _ => 0 :=
    paced_of_zero (fun _ => rfl) False.elim
  have reached := Machine.exec_invariant_of_admits kept
    ⟨wired_new time, initially⟩ prompt
  rw [Machine.exec_observed] at reached
  exact reached.2.once index

instance (webots : Webots) :
    (point : RunnerPoint) → Decidable (InTurn webots point)
  | .check | .task => isTrue trivial
  | .wait token => inferInstanceAs (Decidable (webots.passed token = true))
  | .idle | .entry | .loop | .look | .arrive | .finished => isFalse id

instance (both : State n × (Fin n → ℕ)) :
    (event : Event n) → Decidable (Prompt both event)
  | .main _ _ => inferInstanceAs (Decidable (both.1.main = .simulate →
      ∀ index, ¬ InTurn both.1.webots (both.1.runners index).point))
  | .runner index => inferInstanceAs (Decidable
      ((both.1.runners index).point = .look →
        both.1.webots.syncPoint = none → both.2 index = 0))

/-- The runner goes round twice before the barrier is made. -/
def freeRun : List (Event 1) :=
  startUp ++ List.replicate 9 runnerEvent

/-- The simulator is stepped again before the runner has had the turn it was let
go for. -/
def lateRun : List (Event 1) :=
  startUp ++ [.main true 0, .main true 0, .main true 32, .main true 0,
    .main true 0] ++ List.replicate 4 runnerEvent ++
    [.main true 0, .main true 0, .main true 0, .main true 64] ++
    List.replicate 6 runnerEvent ++ [.main true 0, .main true 0] ++
    List.replicate 3 runnerEvent

theorem tasks_run_twice :
    ¬ tasksSince ((lockstep fun _ => 32).outputs (.new 1 0) freeRun) 0 ≤ 1 ∧
      ¬ tasksSince ((lockstep fun _ => 32).outputs (.new 1 0) lateRun) 0 ≤
        1 := by
  constructor
  · decide +kernel
  · decide +kernel

/-- One step that the runner waits for. -/
def promptRun : List (Event 1) :=
  startUp ++ [.main true 0, .main true 0] ++ List.replicate 4 runnerEvent ++
    [.main true 32, .main true 0, .main true 0] ++
    List.replicate 3 runnerEvent

theorem tasks_run_once :
    tasksSince ((lockstep fun _ => 32).outputs (.new 1 0) promptRun) 0 ≤ 1 :=
  tasksSince_le_one (fun _ => 32) 0 promptRun (by decide +kernel) 0

end RoboBand.Ctrl.Lockstep
