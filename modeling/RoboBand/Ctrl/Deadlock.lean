import RoboBand.Ctrl.Shutdown

namespace RoboBand.Ctrl.Lockstep

open RoboBand.Data

variable {n : ℕ}

/-! A run that breaks the condition for a clean exit can go on to a deadlock:
the runners that are joined first come to their end or to the barrier, and one
that is held there is joined in the end. -/

/-- How many runners the main thread has seen end. -/
def MainPoint.joined (n : ℕ) : MainPoint → ℕ
  | .stop index | .join index => index
  | .done => n
  | _ => 0

/-- A runner arrives at a barrier it has found; the runner that is being joined
was told to stop, and those joined before it have ended. -/
structure Tidy (state : State n) : Prop where
  found : ∀ index, (state.runners index).point = .arrive →
    state.webots.syncPoint ≠ none
  cleared : ∀ index : Fin n, state.main = .join index →
    (state.runners index).running = false
  ended : ∀ index : Fin n, index < state.main.joined n →
    Ended (state.runners index)

section Runner

variable {cycleMs : ℚ} {webots : Webots} {runner : Runner}

theorem next_running :
    (runner.next cycleMs webots).running = runner.running := by
  unfold Runner.next
  split <;> first | rfl | (split <;> rfl)

theorem next_of_ended (ended : Ended runner) :
    runner.next cycleMs webots = runner := by
  obtain idle | finished := ended
  · simp [Runner.next, idle]
  · simp [Runner.next, finished]

theorem found_of_next
    (arrives : (runner.next cycleMs webots).point = .arrive) :
    runner.point = .arrive ∨ webots.syncPoint ≠ none := by
  cases point : runner.point with
  | arrive => exact .inl rfl
  | look =>
      cases found : webots.syncPoint with
      | none => simp [Runner.next, point, found] at arrives
      | some barrier => exact .inr (Option.some_ne_none barrier)
  | loop | wait token | check =>
      simp only [Runner.next, point] at arrives
      split at arrives <;> simp_all
  | idle | entry | task | finished => simp [Runner.next, point] at arrives

/-- The longest way of a stopped runner to its end. -/
def remaining : RunnerPoint → ℕ
  | .idle | .finished => 0
  | .loop => 1
  | .entry | .task => 2
  | .check => 3
  | .wait _ => 4
  | .arrive => 5
  | .look => 6

theorem remaining_next (stopped : runner.running = false)
    (going : ¬ Ended runner)
    (found : runner.point = .arrive → webots.syncPoint ≠ none)
    (passed : ∀ token, runner.point = .wait token →
      webots.passed token = true) :
    remaining (runner.next cycleMs webots).point < remaining runner.point := by
  cases point : runner.point with
  | idle => exact absurd (.inl point) going
  | finished => exact absurd (.inr point) going
  | loop => simp [Runner.next, point, stopped, remaining]
  | entry | task => simp [Runner.next, point, remaining]
  | check =>
      simp only [Runner.next, point]
      split <;> simp [remaining]
  | wait token => simp [Runner.next, point, passed token point, remaining]
  | arrive =>
      obtain ⟨barrier, made⟩ := Option.ne_none_iff_exists'.mp (found point)
      simp [Runner.next, point, made, remaining]
  | look =>
      simp only [Runner.next, point]
      split <;> simp [remaining]

end Runner

section Tidy

variable {state : State n}

section Main

variable {running : Bool} {result : ℤ} {next : State n × List (Output n)}

/-- A step of the main thread moves a runner's thread only by starting it. -/
theorem MainTurn.point (turn : MainTurn state running result next)
    (index : Fin n) :
    (next.1.runners index).point = .entry ∨
      (next.1.runners index).point = (state.runners index).point := by
  cases turn with
  | start started main => exact state.point_run started index
  | stop stopped main => exact .inr (state.point_clear stopped index)
  | _ => exact .inr rfl

theorem MainTurn.cleared (turn : MainTurn state running result next)
    (cleared : ∀ index : Fin n, state.main = .join index →
      (state.runners index).running = false) {index : Fin n}
    (joins : next.1.main = .join index) :
    (next.1.runners index).running = false := by
  cases turn with
  | stop stopped main =>
      obtain rfl : stopped = index := Fin.ext (MainPoint.join.inj joins)
      simp [State.clear, State.setRunner]
  | held => exact cleared index joins
  | _ => cases joins

theorem MainTurn.ended (turn : MainTurn state running result next)
    (ended : ∀ index : Fin n, index < state.main.joined n →
      Ended (state.runners index)) {index : Fin n}
    (seen : index < next.1.main.joined n) : Ended (next.1.runners index) := by
  cases turn with
  | stop stopped main =>
      rw [main] at ended
      rw [Ended, State.point_clear]
      exact ended index seen
  | stopped place main outside =>
      rw [main] at ended
      exact ended index (index.isLt.trans_le (Nat.not_lt.mp outside))
  | join joined main gone =>
      rw [main] at ended
      obtain before | same := Nat.lt_succ_iff_lt_or_eq.mp seen
      · exact ended index before
      · exact Fin.ext same ▸ gone
  | held => exact ended index seen
  | _ => exact absurd seen (Nat.not_lt_zero _)

theorem MainTurn.tidy (turn : MainTurn state running result next)
    (tidy : Tidy state) : Tidy next.1 where
  found := fun index arrives => by
    refine turn.moves.created (tidy.found index ?_)
    obtain entry | same := turn.point index
    · exact nomatch entry.symm.trans arrives
    · exact same.symm.trans arrives
  cleared := fun _ joins => turn.cleared tidy.cleared joins
  ended := fun _ seen => turn.ended tidy.ended seen

end Main

theorem tidy_runnerStep (cycleMs : Fin n → ℚ) (tidy : Tidy state)
    (index : Fin n) : Tidy (runnerStep cycleMs state index).1 where
  found := fun other arrives => by
    refine (moves_runner cycleMs state index).created ?_
    rw [runners_runnerStep] at arrives
    split at arrives
    · obtain before | made := found_of_next arrives
      · exact tidy.found index before
      · exact made
    · exact tidy.found other arrives
  cleared := fun other joins => by
    rw [runners_runnerStep]
    split
    · rename_i same
      exact next_running.trans (same ▸ tidy.cleared other joins)
    · exact tidy.cleared other joins
  ended := fun other seen => by
    rw [runners_runnerStep]
    split
    · rename_i same
      have before := same ▸ tidy.ended other seen
      rw [next_of_ended before]
      exact before
    · exact tidy.ended other seen

theorem tidy_step (cycleMs : Fin n → ℚ) (tidy : Tidy state)
    (event : Event n) : Tidy ((lockstep cycleMs).step state event).1 := by
  cases event with
  | main running result => exact (mainTurn state running result).tidy tidy
  | runner index => exact tidy_runnerStep cycleMs tidy index

theorem tidy_new (time : ℤ) : Tidy (State.new n time) where
  found := fun _ arrives => nomatch arrives
  cleared := fun _ joins => nomatch joins
  ended := fun _ seen => absurd seen (Nat.not_lt_zero _)

end Tidy

/-- What a run keeps once a runner is held behind the main loop. -/
structure Stuck (state : State n) (index : Fin n) : Prop where
  wired : Wired state
  tidy : Tidy state
  left : state.main.Left
  blocked : Blocked state index

section Stuck

variable {state : State n} {index : Fin n}

theorem Stuck.exec (stuck : Stuck state index) (cycleMs : Fin n → ℚ)
    (events : List (Event n)) :
    Stuck ((lockstep cycleMs).exec state events) index := by
  have kept : ∀ (current : State n) (event : Event n), Stuck current index →
      Stuck ((lockstep cycleMs).step current event).1 index :=
    fun _ event ⟨wired, tidy, left, blocked⟩ =>
      ⟨wired_step cycleMs wired event, tidy_step cycleMs tidy event,
        left_step cycleMs left event,
        blocked_step cycleMs wired left blocked event⟩
  exact Machine.exec_invariant kept stuck events

theorem Stuck.not_ended (stuck : Stuck state index) :
    ¬ Ended (state.runners index) := by
  obtain ⟨barrier, _, waits⟩ := stuck.blocked
  rintro (idle | finished)
  · exact nomatch waits.symm.trans idle
  · exact nomatch waits.symm.trans finished

theorem Stuck.joined_le (stuck : Stuck state index) :
    state.main.joined n ≤ index :=
  Nat.not_lt.mp fun seen => stuck.not_ended (stuck.tidy.ended index seen)

theorem passed_of_not_blocked (wired : Wired state)
    (free : ¬ Blocked state index) {token : ℕ}
    (waits : (state.runners index).point = .wait token) :
    state.webots.passed token = true := by
  cases found : state.webots.syncPoint with
  | none =>
      have waiting : state.waiting (some index) = some token :=
        tokenOf_eq_some.mpr waits
      exact nomatch (wired.nobody found _).symm.trans waiting
  | some barrier =>
      refine passed_eq_true.mpr ⟨barrier, found, fun same => free ?_⟩
      exact ⟨barrier, found, same ▸ waits⟩

/-- The runner that is being joined gets to its end or to the barrier. -/
theorem Stuck.drive (stuck : Stuck state index) (cycleMs : Fin n → ℚ)
    {joined : Fin n} (joins : state.main = .join joined) :
    ∃ events, ((lockstep cycleMs).exec state events).main = .join joined ∧
      (Ended (((lockstep cycleMs).exec state events).runners joined) ∨
        Blocked ((lockstep cycleMs).exec state events) joined) := by
  induction size : remaining (state.runners joined).point
    using Nat.strong_induction_on generalizing state with
  | _ count ih =>
      by_cases ended : Ended (state.runners joined)
      · exact ⟨[], joins, .inl ended⟩
      by_cases blocked : Blocked state joined
      · exact ⟨[], joins, .inr blocked⟩
      have fewer : remaining (((lockstep cycleMs).step state
          (.runner joined)).1.runners joined).point < count := by
        rw [← size]
        change remaining ((runnerStep cycleMs state joined).1.runners
          joined).point < _
        rw [runners_runnerStep, if_pos rfl]
        exact remaining_next (stuck.tidy.cleared joined joins) ended
          (stuck.tidy.found joined)
          fun _ => passed_of_not_blocked stuck.wired blocked
      obtain ⟨events, reached⟩ := ih _ fewer
        (stuck.exec cycleMs [.runner joined]) joins rfl
      exact ⟨.runner joined :: events, reached⟩

theorem exec_join_next {joined next : Fin n} (joins : state.main = .join joined)
    (ended : Ended (state.runners joined)) (follows : joined + 1 = next.val)
    (cycleMs : Fin n → ℚ) :
    ((lockstep cycleMs).exec state
      [.main true 0, .main true 0]).main = .join next := by
  have stops : (mainStep state true 0).1 =
      { state with main := .stop next } := by
    simp [mainStep, joins, ended, follows]
  change (mainStep (mainStep state true 0).1 true 0).1.main = _
  rw [stops]
  simp [mainStep]

/-- The runners in front of the one that is held end and are joined, or one of
them is held itself. -/
theorem Stuck.deadlock_join (stuck : Stuck state index)
    (cycleMs : Fin n → ℚ) {joined : Fin n}
    (joins : state.main = .join joined) :
    ∃ events, Deadlocked cycleMs ((lockstep cycleMs).exec state events) := by
  induction size : index - joined.val using Nat.strong_induction_on
    generalizing state joined with
  | _ count ih =>
      obtain ⟨events, reached, outcome⟩ := stuck.drive cycleMs joins
      have there := stuck.exec cycleMs events
      obtain ended | blocked := outcome
      · have before : joined.val < index := by
          have seen := there.joined_le
          rw [reached] at seen
          refine lt_of_le_of_ne seen fun same => there.not_ended ?_
          exact Fin.ext same ▸ ended
        have inside : joined + 1 < n := Nat.lt_of_le_of_lt before index.isLt
        have follows : joined + 1 = (Fin.mk (joined + 1) inside).val := rfl
        have joinsNext := exec_join_next reached ended follows cycleMs
        obtain ⟨rest, deadlocked⟩ := ih (index - (joined + 1)) (by omega)
          (there.exec cycleMs [.main true 0, .main true 0]) joinsNext rfl
        refine ⟨events ++ [.main true 0, .main true 0] ++ rest, ?_⟩
        rw [Machine.exec_append, Machine.exec_append]
        exact deadlocked
      · exact ⟨events, (deadlocked_iff cycleMs there.wired).mpr
          ⟨joined, reached, blocked⟩⟩

theorem Stuck.deadlock (stuck : Stuck state index) (cycleMs : Fin n → ℚ) :
    ∃ events, Deadlocked cycleMs ((lockstep cycleMs).exec state events) := by
  have joined := stuck.joined_le
  have left := stuck.left
  cases point : state.main with
  | join place =>
      rw [point] at joined
      have inside : place < n := joined.trans_lt index.isLt
      have joins : state.main = .join (Fin.mk place inside).val := point
      exact stuck.deadlock_join cycleMs joins
  | stop place =>
      rw [point] at joined
      have inside : place < n := joined.trans_lt index.isLt
      have joins : ((lockstep cycleMs).exec state [.main true 0]).main =
          .join (Fin.mk place inside).val := by
        change (mainStep state true 0).1.main = _
        simp [mainStep, point, inside]
      obtain ⟨events, deadlocked⟩ :=
        (stuck.exec cycleMs [.main true 0]).deadlock_join cycleMs joins
      exact ⟨.main true 0 :: events, deadlocked⟩
  | done =>
      rw [point] at joined
      exact absurd index.isLt (Nat.not_lt.mpr joined)
  | _ =>
      rw [point] at left
      exact left.elim

/-- Leaving the main loop moves no runner, so that one held then is held for
good. -/
theorem stuck_of_exit (wired : Wired state) (tidy : Tidy state)
    {running : Bool} (exits : Exits state running)
    (blocked : Blocked state index) (result : ℤ) :
    Stuck (mainStep state running result).1 index := by
  have wiredNext := wired_step (fun _ => 0) wired (.main running result)
  have tidyNext := (mainTurn state running result).tidy tidy
  obtain ⟨point, rfl⟩ | point := exits
  · refine ⟨wiredNext, tidyNext, ?_, ?_⟩
    · simp [mainStep, point, MainPoint.Left]
    · simp only [mainStep, point]
      exact blocked
  · refine ⟨wiredNext, tidyNext, ?_, ?_⟩
    · simp [mainStep, point, MainPoint.Left]
    · simp only [mainStep, point]
      exact blocked

theorem stuck_of_arrival (cycleMs : Fin n → ℚ) (wired : Wired state)
    (tidy : Tidy state) (left : state.main.Left)
    (arriving : state.arriving (some index)) :
    Stuck (runnerStep cycleMs state index).1 index := by
  obtain ⟨barrier, found⟩ :=
    Option.ne_none_iff_exists'.mp (tidy.found index arriving)
  have point : (state.runners index).point = .arrive := arriving
  have early := early_of_left wired left found arriving
  refine ⟨wired_step cycleMs wired (.runner index),
    tidy_runnerStep cycleMs tidy index, left, barrier.arrive, ?_, ?_⟩
  · simp [syncPoint_runnerStep, Runner.sync, point, found]
  · rw [runners_runnerStep, if_pos rfl, Barrier.arrive_early early]
    simp [Runner.next, point, found]

theorem stuck_of_unclean (cycleMs : Fin n → ℚ) (wired : Wired state)
    (tidy : Tidy state) {event : Event n} (unclean : ¬ CleanExit state event) :
    ∃ index, Stuck ((lockstep cycleMs).step state event).1 index := by
  cases event with
  | main running result =>
      obtain ⟨exits, held⟩ := Classical.not_imp.mp unclean
      obtain ⟨index, blocked⟩ := not_forall_not.mp held
      exact ⟨index, stuck_of_exit wired tidy exits blocked result⟩
  | runner index =>
      obtain ⟨arriving, left⟩ := Classical.not_imp.mp unclean
      exact ⟨index, stuck_of_arrival cycleMs wired tidy (not_not.mp left)
        arriving⟩

theorem deadlock_of_unclean (cycleMs : Fin n → ℚ) (wired : Wired state)
    (tidy : Tidy state) {events : List (Event n)}
    (unclean : ¬ (lockstep cycleMs).Admits CleanExit state events) :
    ∃ rest, Deadlocked cycleMs
      ((lockstep cycleMs).exec state (events ++ rest)) := by
  induction events generalizing state with
  | nil => exact absurd trivial unclean
  | cons event events ih =>
      by_cases clean : CleanExit state event
      · exact ih (wired_step cycleMs wired event)
          (tidy_step cycleMs tidy event) fun later => unclean ⟨clean, later⟩
      · obtain ⟨index, stuck⟩ := stuck_of_unclean cycleMs wired tidy clean
        obtain ⟨rest, deadlocked⟩ :=
          (stuck.exec cycleMs events).deadlock cycleMs
        refine ⟨rest, ?_⟩
        rw [Machine.exec_append]
        exact deadlocked

/-- The condition for a clean shutdown leaves nothing out: a run that breaks it
can go on until the main thread waits for good. -/
theorem unclean_run_deadlocks (cycleMs : Fin n → ℚ) (time : ℤ)
    {events : List (Event n)}
    (unclean : ¬ (lockstep cycleMs).Admits CleanExit (.new n time) events) :
    ∃ rest, Deadlocked cycleMs
      ((lockstep cycleMs).exec (.new n time) (events ++ rest)) :=
  deadlock_of_unclean cycleMs (wired_new time) (tidy_new time) unclean

end Stuck

end RoboBand.Ctrl.Lockstep
