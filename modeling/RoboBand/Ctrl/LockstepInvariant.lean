import RoboBand.Ctrl.Lockstep

namespace RoboBand.Ctrl.Lockstep

open RoboBand.Data

variable {n : ℕ}

/-! Who waits at the barrier, and what a step does to that. -/

def MainPoint.token : MainPoint → Option ℕ
  | .wait token => some token
  | _ => none

theorem MainPoint.token_eq_some {point : MainPoint} {token : ℕ} :
    point.token = some token ↔ point = .wait token := by
  cases point <;> simp [MainPoint.token]

def tokenOf : RunnerPoint → Option ℕ
  | .wait token => some token
  | _ => none

theorem tokenOf_eq_some {point : RunnerPoint} {token : ℕ} :
    tokenOf point = some token ↔ point = .wait token := by
  cases point <;> simp [tokenOf]

namespace State

/-- The main thread is `none`. -/
def waiting (state : State n) : Option (Fin n) → Option ℕ
  | none => state.main.token
  | some index => tokenOf (state.runners index).point

def arriving (state : State n) : Option (Fin n) → Prop
  | none => state.main = .arrive
  | some index => (state.runners index).point = .arrive

theorem waiting_of_arriving {state : State n} {who : Option (Fin n)}
    (arriving : state.arriving who) : state.waiting who = none := by
  cases who with
  | none =>
      change state.main.token = none
      rw [show state.main = .arrive from arriving]
      rfl
  | some index =>
      change tokenOf (state.runners index).point = none
      rw [show (state.runners index).point = .arrive from arriving]
      rfl

theorem waiting_setRunner (state : State n) (index : Fin n)
    (runner : Runner) :
    (state.setRunner index runner).waiting =
      Function.update state.waiting (some index) (tokenOf runner.point) := by
  funext who
  cases who with
  | none => rfl
  | some other =>
      by_cases same : other = index
      · subst same
        simp [setRunner, waiting]
      · simp [setRunner, waiting, same]

theorem waiting_setRunner_same {state : State n} {index : Fin n}
    {runner : Runner}
    (same : tokenOf runner.point = state.waiting (some index)) :
    (state.setRunner index runner).waiting = state.waiting := by
  rw [waiting_setRunner, same, Function.update_eq_self]

theorem waiting_congr {first second : State n}
    (token : first.main.token = second.main.token)
    (runners : first.runners = second.runners) :
    first.waiting = second.waiting := by
  funext who
  cases who with
  | none => exact token
  | some index =>
      change tokenOf (first.runners index).point = _
      rw [runners]
      rfl

theorem waiting_join {state next : State n} {token : Option ℕ}
    (joined : next.main.token = token)
    (runners : next.runners = state.runners) :
    next.waiting = Function.update state.waiting none token := by
  funext who
  cases who with
  | none => exact joined
  | some index =>
      change tokenOf (next.runners index).point = _
      rw [runners]
      rfl

theorem waiting_clear (state : State n) (index : Fin n) :
    (state.clear index).waiting = state.waiting :=
  waiting_setRunner_same rfl

theorem run_main (state : State n) (index : Fin n) :
    (state.run index).main = state.main := by
  unfold run
  split <;> rfl

theorem run_webots (state : State n) (index : Fin n) :
    (state.run index).webots = state.webots := by
  unfold run
  split <;> rfl

theorem point_clear (state : State n) (stopped index : Fin n) :
    ((state.clear stopped).runners index).point =
      (state.runners index).point := by
  change (Function.update state.runners stopped _ index).point = _
  rw [Function.update_apply]
  split
  · rename_i same
    rw [same]
  · rfl

theorem point_run (state : State n) (started index : Fin n) :
    ((state.run started).runners index).point = .entry ∨
      ((state.run started).runners index).point =
        (state.runners index).point := by
  unfold run
  split
  · change (Function.update state.runners started _ index).point = _ ∨
      (Function.update state.runners started _ index).point = _
    rw [Function.update_apply]
    split
    · exact .inl rfl
    · exact .inr rfl
  · exact .inr rfl

theorem waiting_run (state : State n) (index : Fin n) :
    (state.run index).waiting = state.waiting := by
  unfold run
  split
  · rename_i idle
    refine waiting_setRunner_same ?_
    change none = tokenOf (state.runners index).point
    rw [idle]
    rfl
  · rfl

end State

def Event.actor : Event n → Option (Fin n)
  | .main _ _ => none
  | .runner index => some index

/-- All that a step of one thread can do to the barrier and to those who wait
at it. -/
inductive Moves (who : Option (Fin n)) (state next : State n) : Prop where
  | still (sync : next.webots.syncPoint = state.webots.syncPoint)
      (waiting : next.waiting = state.waiting)
  | create (main : state.main = .create)
      (missing : state.webots.syncPoint = none)
      (sync : next.webots.syncPoint =
        some (.new (state.webots.bindRunnerNum + 1)))
      (waiting : next.waiting = state.waiting)
  | arrive (barrier : Barrier)
      (found : state.webots.syncPoint = some barrier)
      (arriving : state.arriving who)
      (sync : next.webots.syncPoint = some barrier.arrive)
      (waiting : next.waiting =
        Function.update state.waiting who (some barrier.phase))
  | leave (barrier : Barrier)
      (found : state.webots.syncPoint = some barrier)
      (passed : state.waiting who ≠ some barrier.phase)
      (sync : next.webots.syncPoint = state.webots.syncPoint)
      (waiting : next.waiting = Function.update state.waiting who none)

theorem passed_eq_true {webots : Webots} {token : ℕ} :
    webots.passed token = true ↔
      ∃ barrier, webots.syncPoint = some barrier ∧ barrier.phase ≠ token := by
  simp [Webots.passed, Option.any_eq_true]

section Runner

variable (cycleMs : Fin n → ℚ) (state : State n) (index : Fin n)

theorem runners_runnerStep (other : Fin n) :
    (runnerStep cycleMs state index).1.runners other =
      if other = index then
        (state.runners index).next (cycleMs index) state.webots
      else state.runners other :=
  Function.update_apply _ _ _ _

theorem waiting_runnerStep :
    (runnerStep cycleMs state index).1.waiting =
      Function.update state.waiting (some index)
        (tokenOf ((state.runners index).next (cycleMs index)
          state.webots).point) :=
  state.waiting_setRunner index _

theorem syncPoint_runnerStep :
    (runnerStep cycleMs state index).1.webots.syncPoint =
      (state.runners index).sync state.webots := rfl

theorem moves_of_quiet
    (token : tokenOf ((state.runners index).next (cycleMs index)
      state.webots).point = tokenOf (state.runners index).point)
    (sync : (state.runners index).sync state.webots = state.webots.syncPoint) :
    Moves (some index) state (runnerStep cycleMs state index).1 := by
  refine .still sync ?_
  rw [waiting_runnerStep, token]
  exact Function.update_eq_self _ _

theorem moves_runner :
    Moves (some index) state (runnerStep cycleMs state index).1 := by
  cases point : (state.runners index).point with
  | idle =>
      apply moves_of_quiet <;> simp [Runner.next, Runner.sync, point]
  | entry =>
      apply moves_of_quiet <;> simp [Runner.next, Runner.sync, point, tokenOf]
  | loop =>
      apply moves_of_quiet
      · simp only [Runner.next, point]
        split <;> rfl
      · simp [Runner.sync, point]
  | look =>
      apply moves_of_quiet
      · simp only [Runner.next, point]
        split <;> rfl
      · simp [Runner.sync, point]
  | arrive =>
      cases found : state.webots.syncPoint with
      | none =>
          apply moves_of_quiet <;>
            simp [Runner.next, Runner.sync, point, found]
      | some barrier =>
          refine .arrive barrier found point ?_ ?_
          · simp [syncPoint_runnerStep, Runner.sync, point, found]
          · simp [waiting_runnerStep, Runner.next, point, found, tokenOf]
  | wait token =>
      cases passed : state.webots.passed token with
      | false =>
          apply moves_of_quiet <;>
            simp [Runner.next, Runner.sync, point, passed]
      | true =>
          obtain ⟨barrier, found, differs⟩ := passed_eq_true.mp passed
          refine .leave barrier found ?_ ?_ ?_
          · intro same
            have held := tokenOf_eq_some.mp same
            rw [point] at held
            exact differs (RunnerPoint.wait.inj held).symm
          · simp [syncPoint_runnerStep, Runner.sync, point]
          · simp [waiting_runnerStep, Runner.next, point, passed, tokenOf]
  | check =>
      apply moves_of_quiet
      · simp only [Runner.next, point]
        split <;> rfl
      · simp [Runner.sync, point]
  | task =>
      apply moves_of_quiet <;> simp [Runner.next, Runner.sync, point, tokenOf]
  | finished =>
      apply moves_of_quiet <;> simp [Runner.next, Runner.sync, point]

end Runner

section Main

/-- All that a step of the main thread can do. -/
inductive MainTurn (state : State n) (running : Bool) (result : ℤ) :
    State n × List (Output n) → Prop where
  | bind (index : ℕ) (main : state.main = .bind index) (inside : index < n) :
      MainTurn state running result
        ({ state with
            main := .bind (index + 1)
            webots := { state.webots with
              bindRunnerNum := state.webots.bindRunnerNum + 1 } }, [])
  | bound (index : ℕ) (main : state.main = .bind index)
      (outside : ¬ index < n) :
      MainTurn state running result ({ state with main := .start 0 }, [])
  | start (index : Fin n) (main : state.main = .start index) :
      MainTurn state running result
        ({ state.run index with main := .start (index + 1) }, [])
  | started (index : ℕ) (main : state.main = .start index)
      (outside : ¬ index < n) :
      MainTurn state running result ({ state with main := .loop }, [])
  | enter (main : state.main = .loop) (going : running = true) :
      MainTurn state running result ({ state with main := .create }, [])
  | quit (main : state.main = .loop) (stopped : running = false) :
      MainTurn state running result ({ state with main := .stop 0 }, [])
  | create (main : state.main = .create) :
      MainTurn state running result
        ({ state.setSync (some (state.webots.syncPoint.getD
            (.new (state.webots.bindRunnerNum + 1)))) with
            main := .simulate }, [])
  | simulate (main : state.main = .simulate) :
      MainTurn state running result
        ({ state with main := .store result }, [.simulated])
  | finish (main : state.main = .store (-1)) :
      MainTurn state running result
        ({ state with
            main := .stop 0
            webots := { state.webots with time := -1 } }, [])
  | store (value : ℤ) (main : state.main = .store value)
      (more : value ≠ -1) :
      MainTurn state running result
        ({ state with
            main := .arrive
            webots := { state.webots with time := value } }, [])
  | arrive (barrier : Barrier) (main : state.main = .arrive)
      (found : state.webots.syncPoint = some barrier) :
      MainTurn state running result
        ({ state.setSync (some barrier.arrive) with
            main := .wait barrier.phase }, [])
  | leave (token : ℕ) (main : state.main = .wait token)
      (passed : state.webots.passed token = true) :
      MainTurn state running result ({ state with main := .loop }, [])
  | stop (index : Fin n) (main : state.main = .stop index) :
      MainTurn state running result
        ({ state.clear index with main := .join index }, [])
  | stopped (index : ℕ) (main : state.main = .stop index)
      (outside : ¬ index < n) :
      MainTurn state running result ({ state with main := .done }, [])
  | join (index : Fin n) (main : state.main = .join index)
      (ended : Ended (state.runners index)) :
      MainTurn state running result
        ({ state with main := .stop (index + 1) }, [])
  | held : MainTurn state running result (state, [])

theorem mainTurn (state : State n) (running : Bool) (result : ℤ) :
    MainTurn state running result (mainStep state running result) := by
  unfold mainStep
  cases point : state.main with
  | bind index =>
      by_cases inside : index < n
      · simp only [if_pos inside]
        exact .bind index point inside
      · simp only [if_neg inside]
        exact .bound index point inside
  | start index =>
      by_cases inside : index < n
      · simp only [dif_pos inside]
        exact .start ⟨index, inside⟩ point
      · simp only [dif_neg inside]
        exact .started index point inside
  | loop =>
      cases running with
      | true => exact .enter point rfl
      | false => exact .quit point rfl
  | create => exact .create point
  | simulate => exact .simulate point
  | store value =>
      by_cases last : value = -1
      · subst last
        exact .finish point
      · simp only [if_neg last]
        exact .store value point last
  | arrive =>
      cases found : state.webots.syncPoint with
      | none => exact .held
      | some barrier => exact .arrive barrier point found
  | wait token =>
      by_cases passed : state.webots.passed token = true
      · simp only [if_pos passed]
        exact .leave token point passed
      · simp only [if_neg passed]
        exact .held
  | stop index =>
      by_cases inside : index < n
      · simp only [dif_pos inside]
        exact .stop ⟨index, inside⟩ point
      · simp only [dif_neg inside]
        exact .stopped index point inside
  | join index =>
      by_cases inside : index < n
      · by_cases ended : Ended (state.runners ⟨index, inside⟩)
        · simp only [dif_pos inside, if_pos ended]
          exact .join ⟨index, inside⟩ point ended
        · simp only [dif_pos inside, if_neg ended]
          exact .held
      · simp only [dif_neg inside]
        exact .held
  | done => exact .held

variable {state : State n} {running : Bool} {result : ℤ}
  {next : State n × List (Output n)}

theorem MainTurn.moves (turn : MainTurn state running result next) :
    Moves none state next.1 := by
  cases turn with
  | start index main =>
      refine .still (congrArg _ (state.run_webots index))
        (Eq.trans ?_ (state.waiting_run index))
      refine State.waiting_congr ?_ rfl
      rw [State.run_main, main]
      rfl
  | create main =>
      have same : ({ state.setSync (some (state.webots.syncPoint.getD
          (.new (state.webots.bindRunnerNum + 1)))) with
          main := .simulate } : State n).waiting = state.waiting :=
        State.waiting_congr (by rw [main]; rfl) rfl
      cases found : state.webots.syncPoint with
      | none =>
          rw [found] at same
          exact .create main found rfl same
      | some barrier =>
          rw [found] at same
          exact .still found.symm same
  | arrive barrier main found =>
      exact .arrive barrier found main rfl (State.waiting_join rfl rfl)
  | leave token main passed =>
      obtain ⟨barrier, found, differs⟩ := passed_eq_true.mp passed
      refine .leave barrier found ?_ rfl (State.waiting_join rfl rfl)
      intro same
      change state.main.token = _ at same
      rw [main] at same
      exact differs (Option.some.inj same).symm
  | stop index main =>
      refine .still rfl (Eq.trans ?_ (state.waiting_clear index))
      refine State.waiting_congr ?_ rfl
      change none = state.main.token
      rw [main]
      rfl
  | held => exact .still rfl rfl
  | bind index main inside | bound index main outside
  | started index main outside | enter main going | quit main stopped
  | simulate main | finish main | store value main more
  | stopped index main outside | join index main ended =>
      exact .still rfl (State.waiting_congr (by rw [main]; rfl) rfl)

end Main

theorem moves (cycleMs : Fin n → ℚ) (state : State n) (event : Event n) :
    Moves event.actor state ((lockstep cycleMs).step state event).1 := by
  cases event with
  | main running result => exact (mainTurn state running result).moves
  | runner index => exact moves_runner cycleMs state index

theorem Moves.created {who : Option (Fin n)} {state next : State n}
    (moves : Moves who state next)
    (created : state.webots.syncPoint ≠ none) :
    next.webots.syncPoint ≠ none := by
  cases moves with
  | still sync waiting => rwa [sync]
  | create main missing sync waiting => exact absurd missing created
  | arrive barrier found arriving sync waiting =>
      rw [sync]
      exact Option.some_ne_none _
  | leave barrier found passed sync waiting => rwa [sync]

/-- How many controllers have been bound when `Robot::run` is here. -/
def MainPoint.bound (n : ℕ) : MainPoint → ℕ
  | .bind index => min index n
  | _ => n

/-- Inside `Webots::step`, with the barrier made. -/
def MainPoint.InStep : MainPoint → Prop
  | .simulate | .store _ | .arrive | .wait _ => True
  | _ => False

section Main

variable {state : State n} {running : Bool} {result : ℤ}
  {next : State n × List (Output n)}

theorem MainTurn.bindRunnerNum_eq (turn : MainTurn state running result next)
    (bound : state.webots.bindRunnerNum = state.main.bound n) :
    next.1.webots.bindRunnerNum = next.1.main.bound n := by
  cases turn with
  | bind index main inside | bound index main outside =>
      rw [main] at bound
      simp only [MainPoint.bound] at bound ⊢
      omega
  | start index main =>
      rw [main] at bound
      exact (congrArg Webots.bindRunnerNum (state.run_webots index)).trans bound
  | held => exact bound
  | started index main outside | enter main going | quit main stopped
  | create main | simulate main | finish main | store value main more
  | arrive barrier main found | leave token main passed | stop index main
  | stopped index main outside | join index main ended =>
      rw [main] at bound
      exact bound

theorem MainTurn.inStep (turn : MainTurn state running result next)
    (inStep : next.1.main.InStep) :
    state.main.InStep ∨ next.1.webots.syncPoint ≠ none := by
  cases turn with
  | create main => exact .inr (Option.some_ne_none _)
  | simulate main | store value main more | arrive barrier main found =>
      left
      rw [main]
      trivial
  | held => exact .inl inStep
  | bind index main inside | bound index main outside | start index main
  | started index main outside | enter main going | quit main stopped
  | finish main | leave token main passed | stop index main
  | stopped index main outside | join index main ended =>
      exact inStep.elim

end Main

/-- The barrier counts those who wait, and is for everybody. -/
structure Wired (state : State n) : Prop where
  tally : ∀ barrier, state.webots.syncPoint = some barrier →
    barrier.Tally state.waiting
  nobody : state.webots.syncPoint = none → ∀ who, state.waiting who = none
  bound : state.webots.bindRunnerNum = state.main.bound n
  created : state.main.InStep → state.webots.syncPoint ≠ none

theorem wired_new (time : ℤ) : Wired (State.new n time) where
  tally := fun _ found => nomatch found
  nobody := fun _ who => by
    cases who with
    | none => rfl
    | some index => rfl
  bound := (Nat.zero_min n).symm
  created := False.elim

section Wired

variable {state next : State n} {who : Option (Fin n)}

theorem Wired.tally_of_moves (wired : Wired state)
    (moves : Moves who state next)
    (barrier : Barrier) (found : next.webots.syncPoint = some barrier) :
    barrier.Tally next.waiting := by
  cases moves with
  | still sync waiting =>
      rw [waiting]
      exact wired.tally barrier (sync.symm.trans found)
  | create main missing sync waiting =>
      obtain rfl := Option.some.inj (sync.symm.trans found)
      rw [waiting]
      refine Barrier.tally_new ?_ (wired.nobody missing)
      rw [wired.bound, main, Fintype.card_option, Fintype.card_fin]
      rfl
  | arrive before had arriving sync waiting =>
      obtain rfl := Option.some.inj (sync.symm.trans found)
      rw [waiting]
      exact (wired.tally before had).arrive
        (State.waiting_of_arriving arriving)
  | leave before had passed sync waiting =>
      obtain rfl := Option.some.inj (had.symm.trans (sync.symm.trans found))
      rw [waiting]
      exact (wired.tally before had).leave passed

theorem Wired.nobody_of_moves (wired : Wired state)
    (moves : Moves who state next)
    (missing : next.webots.syncPoint = none) (other : Option (Fin n)) :
    next.waiting other = none := by
  cases moves with
  | still sync waiting =>
      rw [waiting]
      exact wired.nobody (sync.symm.trans missing) other
  | create main before sync waiting => exact nomatch sync.symm.trans missing
  | arrive before had arriving sync waiting =>
      exact nomatch sync.symm.trans missing
  | leave before had passed sync waiting =>
      exact nomatch had.symm.trans (sync.symm.trans missing)

theorem wired_step (cycleMs : Fin n → ℚ) (wired : Wired state)
    (event : Event n) : Wired ((lockstep cycleMs).step state event).1 where
  tally := wired.tally_of_moves (moves cycleMs state event)
  nobody := wired.nobody_of_moves (moves cycleMs state event)
  bound := by
    cases event with
    | main running result =>
        exact (mainTurn state running result).bindRunnerNum_eq wired.bound
    | runner index => exact wired.bound
  created := fun inStep => by
    have kept := (moves cycleMs state event).created
    cases event with
    | main running result =>
        obtain before | made := (mainTurn state running result).inStep inStep
        · exact kept (wired.created before)
        · exact made
    | runner index => exact kept (wired.created inStep)

theorem wired_exec (cycleMs : Fin n → ℚ) (time : ℤ)
    (events : List (Event n)) :
    Wired ((lockstep cycleMs).exec (State.new n time) events) := by
  have kept : ∀ (state : State n) (event : Event n), Wired state →
      Wired ((lockstep cycleMs).step state event).1 :=
    fun _ event wired => wired_step cycleMs wired event
  exact Machine.exec_invariant kept (wired_new time) events

end Wired

end RoboBand.Ctrl.Lockstep
