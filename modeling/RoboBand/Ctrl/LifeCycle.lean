import RoboBand.Util.Worker

namespace RoboBand

open Data Util

/-! The classes that own a worker: `Io` and `Runner`, the latter as it is built
for the robot and as it is built for the simulator. -/

namespace Io

def run : Worker → Worker × List Effect := Worker.run

def stop : Worker → Worker × List Effect := Worker.stop

/-- The buffer goes before the worker is waited for. -/
def destroy (worker : Worker) : List Effect := .deleteBuffer :: worker.destroy

def living : Machine Worker Call Effect where
  step worker
    | .run => run worker
    | .stop => stop worker

def lifeCycle (calls : List Call) : List Effect :=
  living.outputs .new calls ++ destroy (living.exec .new calls)

end Io

namespace Ctrl.Runner

def run : Worker → Worker × List Effect := Worker.run

/-- `bound` is what the test of `webots_io` against null finds. -/
def runWebots (bound : Bool) (worker : Worker) : Worker × List Effect :=
  if bound then worker.run else (worker, [])

def stop : Worker → Worker × List Effect := Worker.stop

def destroy : Worker → List Effect := Worker.destroy

def living : Machine Worker Call Effect where
  step worker
    | .run => run worker
    | .stop => stop worker

def livingWebots (bound : Bool) : Machine Worker Call Effect where
  step worker
    | .run => runWebots bound worker
    | .stop => stop worker

def lifeCycle (calls : List Call) : List Effect :=
  living.outputs .new calls ++ destroy (living.exec .new calls)

def lifeCycleWebots (bound : Bool) (calls : List Call) : List Effect :=
  (livingWebots bound).outputs .new calls ++
    destroy ((livingWebots bound).exec .new calls)

end Ctrl.Runner

namespace Ctrl

theorem orderly_deleteBuffer_iff (before after : List Effect) :
    Orderly (before ++ .deleteBuffer :: after) ↔ Orderly (before ++ after) := by
  have sound : Effect.deleteBuffer.Sound := trivial
  constructor
  · intro orderly
    refine ⟨by simpa using orderly.single, fun effect member => ?_⟩
    apply orderly.sound
    simp only [List.mem_append, List.mem_cons] at member ⊢
    tauto
  · intro orderly
    refine ⟨by simpa using orderly.single, fun effect member => ?_⟩
    simp only [List.mem_append, List.mem_cons] at member
    obtain first | rfl | second := member
    · exact orderly.sound effect (List.mem_append_left _ first)
    · exact sound
    · exact orderly.sound effect (List.mem_append_right _ second)

theorem io_orderly_iff (calls : List Call) :
    Orderly (Io.lifeCycle calls) ↔
      .run ∉ calls ∨ Worker.lateStops calls = 1 := by
  have same : Io.living = Worker.living true := rfl
  rw [Io.lifeCycle, Io.destroy, orderly_deleteBuffer_iff, same]
  exact (Worker.orderly_iff true calls).trans
    (or_iff_right Bool.true_eq_false.mp)

theorem runnerWebots_orderly_iff (bound : Bool) (calls : List Call) :
    Orderly (Runner.lifeCycleWebots bound calls) ↔
      bound = false ∨ .run ∉ calls ∨ Worker.lateStops calls = 1 :=
  Worker.orderly_iff bound calls

theorem runner_orderly_iff (calls : List Call) :
    Orderly (Runner.lifeCycle calls) ↔
      .run ∉ calls ∨ Worker.lateStops calls = 1 :=
  (Worker.orderly_iff true calls).trans (or_iff_right Bool.true_eq_false.mp)

/-- Whoever starts a worker has to stop it exactly once. -/
theorem lifeCycle_orderly_iff (bound : Bool) (calls : List Call) :
    (Orderly (Io.lifeCycle calls) ↔
        .run ∉ calls ∨ Worker.lateStops calls = 1) ∧
      (Orderly (Runner.lifeCycle calls) ↔
        .run ∉ calls ∨ Worker.lateStops calls = 1) ∧
      (Orderly (Runner.lifeCycleWebots bound calls) ↔
        bound = false ∨ .run ∉ calls ∨ Worker.lateStops calls = 1) :=
  ⟨io_orderly_iff calls, runner_orderly_iff calls,
    runnerWebots_orderly_iff bound calls⟩

/-- The second stop joins again; without a stop the destructor waits for a
worker that still runs. -/
theorem lifeCycle_disorderly :
    .join false false ∈ Io.lifeCycle [.run, .stop, .stop] ∧
      .join true true ∈ Io.lifeCycle [.run] ∧
      ¬ Orderly (Io.lifeCycle [.run, .stop, .stop]) ∧
      ¬ Orderly (Runner.lifeCycle [.run]) := by
  refine ⟨by decide, by decide, fun orderly => ?_, fun orderly => ?_⟩
  · have sound := orderly.sound (.join false false) (by decide)
    exact Bool.false_ne_true sound.1
  · have sound := orderly.sound (.join true true) (by decide)
    exact Bool.false_ne_true sound.2.symm

end Ctrl

end RoboBand
