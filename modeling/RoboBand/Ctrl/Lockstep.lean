import Mathlib.Data.Fintype.Option
import RoboBand.Ctrl.WebotsRunner

namespace RoboBand.Ctrl.Lockstep

open RoboBand.Data

/-! `Robot::run` of the build for the simulator, with the threads of its
runners.  Controllers are numbered; an event lets one thread make its next
step, and a thread that is held does not move. -/

inductive MainPoint where
  | bind (index : ℕ)
  | start (index : ℕ)
  | loop
  | create
  | simulate
  | store (result : ℤ)
  | arrive
  | wait (token : ℕ)
  | stop (index : ℕ)
  | join (index : ℕ)
  | done
  deriving DecidableEq

/-- `result` is what `Webots::step` makes of the simulator's answer: the time in
milliseconds, or -1 when the simulation is over.  `running` is the flag that
`Robot::run` was given. -/
inductive Event (n : ℕ) where
  | main (running : Bool) (result : ℤ)
  | runner (index : Fin n)

inductive Output (n : ℕ) where
  | simulated
  | task (index : Fin n)
  deriving DecidableEq

structure State (n : ℕ) where
  main : MainPoint
  webots : Webots
  runners : Fin n → Runner

variable {n : ℕ}

namespace State

def new (n : ℕ) (time : ℤ) : State n where
  main := .bind 0
  webots := { time := time, bindRunnerNum := 0, syncPoint := none }
  runners := fun _ => .new

def setRunner (state : State n) (index : Fin n) (runner : Runner) : State n :=
  { state with runners := Function.update state.runners index runner }

def setSync (state : State n) (syncPoint : Option Barrier) : State n :=
  { state with webots := { state.webots with syncPoint := syncPoint } }

/-- `Runner::run`, of a runner that has been bound. -/
def run (state : State n) (index : Fin n) : State n :=
  if (state.runners index).point = .idle then
    state.setRunner index
      { state.runners index with running := true, point := .entry }
  else
    state

/-- The first half of `Runner::stop`. -/
def clear (state : State n) (index : Fin n) : State n :=
  state.setRunner index { state.runners index with running := false }

end State

/-- Whether `join` returns at once: there is no thread, or it has ended. -/
def Ended (runner : Runner) : Prop :=
  runner.point = .idle ∨ runner.point = .finished

instance (runner : Runner) : Decidable (Ended runner) :=
  inferInstanceAs (Decidable (_ ∨ _))

/-- The next step of `Robot::run`, with `Webots::step` inlined. -/
def mainStep (state : State n) (running : Bool) (result : ℤ) :
    State n × List (Output n) :=
  match state.main with
  | .bind index =>
      if index < n then
        ({ state with
            main := .bind (index + 1)
            webots := { state.webots with
              bindRunnerNum := state.webots.bindRunnerNum + 1 } }, [])
      else
        ({ state with main := .start 0 }, [])
  | .start index =>
      if inside : index < n then
        ({ state.run ⟨index, inside⟩ with main := .start (index + 1) }, [])
      else
        ({ state with main := .loop }, [])
  | .loop =>
      ({ state with main := if running then .create else .stop 0 }, [])
  | .create =>
      let barrier := state.webots.syncPoint.getD
        (.new (state.webots.bindRunnerNum + 1))
      ({ state.setSync (some barrier) with main := .simulate }, [])
  | .simulate => ({ state with main := .store result }, [.simulated])
  | .store result =>
      ({ state with
          main := if result = -1 then .stop 0 else .arrive
          webots := { state.webots with time := result } }, [])
  | .arrive =>
      match state.webots.syncPoint with
      | none => (state, [])
      | some barrier =>
          ({ state.setSync (some barrier.arrive) with
              main := .wait barrier.phase }, [])
  | .wait token =>
      if state.webots.passed token then ({ state with main := .loop }, [])
      else (state, [])
  | .stop index =>
      if inside : index < n then
        ({ state.clear ⟨index, inside⟩ with main := .join index }, [])
      else
        ({ state with main := .done }, [])
  | .join index =>
      if inside : index < n then
        if Ended (state.runners ⟨index, inside⟩) then
          ({ state with main := .stop (index + 1) }, [])
        else
          (state, [])
      else
        (state, [])
  | .done => (state, [])

/-- The next step of a runner's `thread_func`. -/
def runnerStep (cycleMs : Fin n → ℚ) (state : State n) (index : Fin n) :
    State n × List (Output n) :=
  let runner := state.runners index
  ((state.setRunner index (runner.next (cycleMs index) state.webots)).setSync
      (runner.sync state.webots),
    if runner.point = .task then [.task index] else [])

def lockstep (cycleMs : Fin n → ℚ) :
    Machine (State n) (Event n) (Output n) where
  step state
    | .main running result => mainStep state running result
    | .runner index => runnerStep cycleMs state index

/-! Runs with one controller. -/

def runnerEvent : Event 1 := .runner 0

/-- The runner is bound and started, and the main thread enters its loop. -/
def startUp : List (Event 1) :=
  [.main true 0, .main true 0, .main true 0, .main true 0]

end RoboBand.Ctrl.Lockstep
