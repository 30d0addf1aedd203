import RoboBand.Ctrl.LockstepInvariant

namespace RoboBand.Ctrl.Lockstep

open RoboBand.Data

variable {n : ℕ}

/-! The end of a run: the main thread stops the runners one after the other and
waits for each. -/

/-- Behind the main loop. -/
def MainPoint.Left : MainPoint → Prop
  | .stop _ | .join _ | .done => True
  | _ => False

instance : (point : MainPoint) → Decidable point.Left
  | .stop _ | .join _ | .done => isTrue trivial
  | .bind _ | .start _ | .loop | .create | .simulate | .store _ | .arrive
  | .wait _ => isFalse id

/-- The runner waits for a phase that is not over. -/
def Blocked (state : State n) (index : Fin n) : Prop :=
  ∃ barrier ∈ state.webots.syncPoint,
    (state.runners index).point = .wait barrier.phase

instance (state : State n) (index : Fin n) :
    Decidable (Blocked state index) :=
  inferInstanceAs (Decidable (∃ barrier ∈ state.webots.syncPoint, _))

/-- The main thread waits for a runner that waits for a phase which no further
step of any thread can bring to its end. -/
def Deadlocked (cycleMs : Fin n → ℚ) (state : State n) : Prop :=
  ∃ index : Fin n, state.main = .join index ∧
    ∀ events, Blocked ((lockstep cycleMs).exec state events) index

def Exits (state : State n) (running : Bool) : Prop :=
  state.main = .loop ∧ running = false ∨ state.main = .store (-1)

/-- The main loop is not left while a runner is held at the barrier, and no
runner arrives there afterwards. -/
def CleanExit (state : State n) : Event n → Prop
  | .main running _ => Exits state running → ∀ index, ¬ Blocked state index
  | .runner index => state.arriving (some index) → ¬ state.main.Left

theorem blocked_iff {state : State n} {index : Fin n} :
    Blocked state index ↔ ∃ barrier, state.webots.syncPoint = some barrier ∧
      state.waiting (some index) = some barrier.phase := by
  simp only [Blocked, Option.mem_def, State.waiting, tokenOf_eq_some]

theorem MainPoint.Left.token {point : MainPoint} (left : point.Left) :
    point.token = none := by
  cases point <;> first | rfl | exact left.elim

section Main

variable {state : State n} {running : Bool} {result : ℤ}
  {next : State n × List (Output n)}

theorem MainTurn.exits (turn : MainTurn state running result next)
    (left : next.1.main.Left) : state.main.Left ∨ Exits state running := by
  cases turn with
  | quit main stopped => exact .inr (.inl ⟨main, stopped⟩)
  | finish main => exact .inr (.inr main)
  | stop index main | stopped index main outside | join index main ended =>
      left
      rw [main]
      trivial
  | held => exact .inl left
  | bind index main inside | bound index main outside | start index main
  | started index main outside | enter main going | create main
  | simulate main | store value main more | arrive barrier main found
  | leave token main passed =>
      exact left.elim

theorem MainTurn.left (turn : MainTurn state running result next)
    (left : state.main.Left) : next.1.main.Left := by
  cases turn with
  | stop index main | stopped index main outside | join index main ended =>
      trivial
  | held => exact left
  | bind index main inside | bound index main outside | start index main
  | started index main outside | enter main going | quit main stopped
  | create main | simulate main | finish main | store value main more
  | arrive barrier main found | leave token main passed =>
      rw [main] at left
      exact left.elim

end Main

section Blocked

variable {state next : State n} {who : Option (Fin n)} {index : Fin n}

/-- Nobody comes to be held but by arriving. -/
theorem blocked_of_moves (wired : Wired state) (moves : Moves who state next)
    (blocked : Blocked next index) :
    Blocked state index ∨ who = some index ∧ state.arriving who := by
  obtain ⟨barrier, found, waits⟩ := blocked_iff.mp blocked
  cases moves with
  | still sync waiting =>
      rw [sync] at found
      rw [waiting] at waits
      exact .inl (blocked_iff.mpr ⟨barrier, found, waits⟩)
  | create main missing sync waiting =>
      rw [waiting, wired.nobody missing] at waits
      exact nomatch waits
  | arrive before had arriving sync waiting =>
      by_cases same : who = some index
      · exact .inr ⟨same, arriving⟩
      · obtain rfl := Option.some.inj (sync.symm.trans found)
        rw [waiting, Function.update_of_ne (Ne.symm same)] at waits
        have opened := (wired.tally before had).opened _ _ waits
        have early : before.arrived + 1 ≠ before.expected := fun last => by
          rw [Barrier.arrive_last last] at opened
          exact Nat.not_succ_le_self _ opened
        rw [Barrier.arrive_early early] at waits
        exact .inl (blocked_iff.mpr ⟨before, had, waits⟩)
  | leave before had passed sync waiting =>
      by_cases same : who = some index
      · rw [waiting, same, Function.update_self] at waits
        exact nomatch waits
      · rw [sync] at found
        rw [waiting, Function.update_of_ne (Ne.symm same)] at waits
        exact .inl (blocked_iff.mpr ⟨barrier, found, waits⟩)

/-- Without the main thread a phase never ends. -/
theorem early_of_left {barrier : Barrier} (wired : Wired state)
    (left : state.main.Left) (found : state.webots.syncPoint = some barrier)
    (arriving : state.arriving who) :
    barrier.arrived + 1 ≠ barrier.expected := by
  intro last
  have missing := State.waiting_of_arriving arriving
  have away : none ≠ who := fun same => by
    rw [← same] at arriving
    rw [show state.main = .arrive from arriving] at left
    exact left.elim
  have held := (wired.tally barrier found).others_wait last missing none away
  exact nomatch left.token.symm.trans held

theorem blocked_step (cycleMs : Fin n → ℚ) (wired : Wired state)
    (left : state.main.Left) (blocked : Blocked state index)
    (event : Event n) :
    Blocked ((lockstep cycleMs).step state event).1 index := by
  obtain ⟨barrier, found, waits⟩ := blocked_iff.mp blocked
  refine blocked_iff.mpr ?_
  cases moves cycleMs state event with
  | still sync waiting => exact ⟨barrier, sync.trans found, waiting ▸ waits⟩
  | create main missing sync waiting =>
      rw [main] at left
      exact left.elim
  | arrive before had arriving sync waiting =>
      obtain rfl := Option.some.inj (had.symm.trans found)
      have missing := State.waiting_of_arriving arriving
      have early := early_of_left wired left had arriving
      have other : some index ≠ event.actor := fun same =>
        nomatch (same ▸ missing).symm.trans waits
      rw [Barrier.arrive_early early] at sync
      refine ⟨_, sync, ?_⟩
      rw [waiting, Function.update_of_ne other]
      exact waits
  | leave before had passed sync waiting =>
      obtain rfl := Option.some.inj (had.symm.trans found)
      have other : some index ≠ event.actor := fun same =>
        passed (same ▸ waits)
      refine ⟨before, sync.trans found, ?_⟩
      rw [waiting, Function.update_of_ne other]
      exact waits

theorem left_step (cycleMs : Fin n → ℚ) (left : state.main.Left)
    (event : Event n) :
    ((lockstep cycleMs).step state event).1.main.Left := by
  cases event with
  | main running result => exact (mainTurn state running result).left left
  | runner index => exact left

/-- In a state that a run can reach, a runner that is held while the main
thread joins it is held for good. -/
theorem deadlocked_iff (cycleMs : Fin n → ℚ) (wired : Wired state) :
    Deadlocked cycleMs state ↔
      ∃ index : Fin n, state.main = .join index ∧ Blocked state index := by
  constructor
  · rintro ⟨index, joins, stuck⟩
    exact ⟨index, joins, stuck []⟩
  · rintro ⟨index, joins, blocked⟩
    have left : state.main.Left := by
      rw [joins]
      trivial
    have kept : ∀ (current : State n) (event : Event n),
        Wired current ∧ current.main.Left ∧ Blocked current index →
        Wired ((lockstep cycleMs).step current event).1 ∧
          ((lockstep cycleMs).step current event).1.main.Left ∧
          Blocked ((lockstep cycleMs).step current event).1 index :=
      fun _ event ⟨wired, left, blocked⟩ =>
        ⟨wired_step cycleMs wired event, left_step cycleMs left event,
          blocked_step cycleMs wired left blocked event⟩
    exact ⟨index, joins, fun events =>
      (Machine.exec_invariant kept ⟨wired, left, blocked⟩ events).2.2⟩

/-- Behind the main loop nobody is held at the barrier. -/
def Released (state : State n) : Prop :=
  state.main.Left → ∀ index, ¬ Blocked state index

theorem released_step (cycleMs : Fin n → ℚ) (wired : Wired state)
    (released : Released state) {event : Event n}
    (clean : CleanExit state event) :
    Released ((lockstep cycleMs).step state event).1 := by
  intro left index blocked
  have origin := blocked_of_moves wired (moves cycleMs state event) blocked
  cases event with
  | main running result =>
      obtain before | ⟨other, _⟩ := origin
      · obtain earlier | exits := (mainTurn state running result).exits left
        · exact released earlier index before
        · exact clean exits index before
      · exact nomatch other
  | runner mover =>
      obtain before | ⟨same, arriving⟩ := origin
      · exact released left index before
      · exact clean arriving left

end Blocked

/-- The main thread never waits for a runner that is held for good, if none is
held at the barrier when the main loop is left and none arrives there later. -/
theorem shutdown_completes (cycleMs : Fin n → ℚ) (time : ℤ)
    (events : List (Event n))
    (clean : (lockstep cycleMs).Admits CleanExit (.new n time) events) :
    ¬ Deadlocked cycleMs ((lockstep cycleMs).exec (.new n time) events) := by
  have kept : ∀ (state : State n) (event : Event n),
      Wired state ∧ Released state → CleanExit state event →
      Wired ((lockstep cycleMs).step state event).1 ∧
        Released ((lockstep cycleMs).step state event).1 :=
    fun _ event ⟨wired, released⟩ clean =>
      ⟨wired_step cycleMs wired event,
        released_step cycleMs wired released clean⟩
  obtain ⟨wired, released⟩ := Machine.exec_invariant_of_admits kept
    ⟨wired_new time, False.elim⟩ clean
  intro deadlocked
  obtain ⟨index, joins, blocked⟩ := (deadlocked_iff cycleMs wired).mp deadlocked
  refine released ?_ index blocked
  rw [joins]
  trivial

/-- The simulation is over while the runner waits for its first step. -/
def lastStep : List (Event 1) :=
  startUp ++ [.main true 0, .main true 0, runnerEvent, runnerEvent,
    runnerEvent, runnerEvent, .main true (-1), .main true 0, .main true 0]

theorem shutdown_deadlocks :
    Deadlocked (fun _ => 1)
      ((lockstep fun _ => 1).exec (.new 1 0) lastStep) := by
  refine (deadlocked_iff _ (wired_exec _ 0 lastStep)).mpr ⟨0, ?_, ?_⟩
  · decide +kernel
  · decide +kernel

instance (state : State n) :
    (event : Event n) → Decidable (CleanExit state event)
  | .main running _ =>
      inferInstanceAs (Decidable (state.main = .loop ∧ running = false ∨
        state.main = .store (-1) → ∀ index, ¬ Blocked state index))
  | .runner index =>
      inferInstanceAs (Decidable
        ((state.runners index).point = .arrive → ¬ state.main.Left))

/-- The runner meets the main thread at the barrier and runs its task; the flag
is cleared while it tests whether to go on. -/
def oneCycle : List (Event 1) :=
  startUp ++ [.main true 0, .main true 0, .main true 32, .main true 0,
    runnerEvent, runnerEvent, runnerEvent, runnerEvent, .main true 0,
    .main true 0, runnerEvent, runnerEvent, runnerEvent, .main false 0,
    .main false 0]

theorem shutdown_completes_early :
    (lockstep fun _ => 32).outputs (.new 1 0) oneCycle =
        [.simulated, .task 0] ∧
      ((lockstep fun _ => 32).exec (.new 1 0) oneCycle).main = .join 0 ∧
      ¬ Deadlocked (fun _ => 32)
        ((lockstep fun _ => 32).exec (.new 1 0) oneCycle) :=
  ⟨by decide +kernel, by decide +kernel,
    shutdown_completes (fun _ => 32) 0 oneCycle (by decide +kernel)⟩

end RoboBand.Ctrl.Lockstep
