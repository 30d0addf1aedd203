import Mathlib.Data.List.Count
import RoboBand.Data.Machine

namespace RoboBand.Util

open RoboBand.Data

/-! An object that owns a worker thread: a pointer to it and the flag that the
worker looks at.  The pointer is never cleared, and the worker is only ever
told to stop through the flag. -/

inductive Thread where
  | joinable
  | joined

structure Worker where
  thread : Option Thread
  running : Bool

inductive Call where
  | run
  | stop
  deriving DecidableEq

/-- What the calls do beyond the two members.  A join is given with what it
finds: whether the thread is joinable, and the flag. -/
inductive Effect where
  | deleteBuffer
  | create
  | join (joinable running : Bool)
  deriving DecidableEq

def Effect.Sound : Effect → Prop
  | .join joinable running => joinable = true ∧ running = false
  | _ => True

/-- No second worker, no join that throws, and none of a worker that was not
told to stop. -/
structure Orderly (effects : List Effect) : Prop where
  single : effects.count .create ≤ 1
  sound : ∀ effect ∈ effects, effect.Sound

namespace Worker

def new : Worker where
  thread := none
  running := false

def run (worker : Worker) : Worker × List Effect :=
  match worker.thread with
  | some _ => (worker, [])
  | none => ({ thread := some .joinable, running := true }, [.create])

/-- A join of a thread that has been joined throws; the thread stays as it
is. -/
def join (worker : Worker) : Worker × List Effect :=
  match worker.thread with
  | none => (worker, [])
  | some .joinable =>
      ({ worker with thread := some .joined }, [.join true worker.running])
  | some .joined => (worker, [.join false worker.running])

def stop (worker : Worker) : Worker × List Effect :=
  join { worker with running := false }

/-- The test of the destructors. -/
def destroy (worker : Worker) : List Effect :=
  match worker.thread with
  | some .joinable => worker.join.2
  | _ => []

/-- Calls in any order, `ready` being what `run` asks for first. -/
def living (ready : Bool) : Machine Worker Call Effect where
  step worker
    | .run => if ready then worker.run else (worker, [])
    | .stop => worker.stop

def effects (ready : Bool) (worker : Worker) (calls : List Call) :
    List Effect :=
  (living ready).outputs worker calls ++
    ((living ready).exec worker calls).destroy

/-- The stops that come after the worker was created. -/
def lateStops (calls : List Call) : ℕ :=
  (calls.dropWhile (· ≠ .run)).count .stop

variable {ready : Bool}

theorem effects_cons (worker : Worker) (call : Call) (rest : List Call) :
    effects ready worker (call :: rest) =
      ((living ready).step worker call).2 ++
        effects ready ((living ready).step worker call).1 rest := by
  rw [effects, Machine.outputs_cons, Machine.exec_cons, List.append_assoc]
  rfl

@[simp] theorem step_run_started (thread : Thread) (running : Bool) :
    (living ready).step ⟨some thread, running⟩ .run =
      (⟨some thread, running⟩, []) := by
  cases ready with
  | false => rfl
  | true => rfl

@[simp] theorem step_stop_joinable (running : Bool) :
    (living ready).step ⟨some .joinable, running⟩ .stop =
      (⟨some .joined, false⟩, [.join true false]) := rfl

@[simp] theorem step_stop_joined (running : Bool) :
    (living ready).step ⟨some .joined, running⟩ .stop =
      (⟨some .joined, false⟩, [.join false false]) := rfl

@[simp] theorem step_stop_new (running : Bool) :
    (living ready).step ⟨none, running⟩ .stop = (⟨none, false⟩, []) := rfl

@[simp] theorem step_run_new (running : Bool) :
    (living true).step ⟨none, running⟩ .run =
      (⟨some .joinable, true⟩, [.create]) := rfl

@[simp] theorem step_run_unready (running : Bool) :
    (living false).step ⟨none, running⟩ .run = (⟨none, running⟩, []) := rfl

/-! Three phases: no worker yet, a worker that may be joined, and a worker that
has been joined.  Calls lead from one to the next and never back. -/

def Sounds (effects : List Effect) : Prop := ∀ effect ∈ effects, effect.Sound

@[simp] theorem sounds_nil : Sounds [] := fun _ member => nomatch member

@[simp] theorem sounds_cons (effect : Effect) (rest : List Effect) :
    Sounds (effect :: rest) ↔ effect.Sound ∧ Sounds rest :=
  List.forall_mem_cons

theorem sounds_joined_iff (running : Bool) (calls : List Call) :
    Sounds (effects ready ⟨some .joined, running⟩ calls) ↔
      calls.count .stop = 0 := by
  induction calls generalizing running with
  | nil => exact iff_of_true sounds_nil rfl
  | cons call rest ih =>
      cases call with
      | run => simp [effects_cons, ih]
      | stop => simp [effects_cons, Effect.Sound]

theorem sounds_joinable_iff (calls : List Call) :
    Sounds (effects ready ⟨some .joinable, true⟩ calls) ↔
      calls.count .stop = 1 := by
  induction calls with
  | nil =>
      refine iff_of_false (fun sounds => ?_) Nat.zero_ne_one
      exact Bool.false_ne_true (sounds _ (List.mem_singleton.mpr rfl)).2.symm
  | cons call rest ih =>
      cases call with
      | run => simp [effects_cons, ih]
      | stop => simp [effects_cons, sounds_joined_iff, Effect.Sound]

theorem sounds_new_iff (running : Bool) (calls : List Call) :
    Sounds (effects true ⟨none, running⟩ calls) ↔
      .run ∉ calls ∨ lateStops calls = 1 := by
  induction calls generalizing running with
  | nil => exact iff_of_true sounds_nil (.inl List.not_mem_nil)
  | cons call rest ih =>
      cases call with
      | run =>
          simp [effects_cons, sounds_joinable_iff, lateStops, Effect.Sound]
      | stop => simp [effects_cons, ih, lateStops]

theorem effects_unready (running : Bool) (calls : List Call) :
    effects false ⟨none, running⟩ calls = [] := by
  induction calls generalizing running with
  | nil => rfl
  | cons call rest ih =>
      cases call with
      | run => simp [effects_cons, ih]
      | stop => simp [effects_cons, ih]

theorem count_create_started (thread : Thread) (running : Bool)
    (calls : List Call) :
    (effects ready ⟨some thread, running⟩ calls).count .create = 0 := by
  induction calls generalizing thread running with
  | nil => cases thread <;> rfl
  | cons call rest ih =>
      cases call with
      | run => simp [effects_cons, ih]
      | stop => cases thread <;> simp [effects_cons, ih]

theorem count_create_le_one (running : Bool) (calls : List Call) :
    (effects true ⟨none, running⟩ calls).count .create ≤ 1 := by
  induction calls generalizing running with
  | nil => exact Nat.zero_le _
  | cons call rest ih =>
      cases call with
      | run => simp [effects_cons, count_create_started]
      | stop => simpa [effects_cons] using ih false

theorem orderly_iff (ready : Bool) (calls : List Call) :
    Orderly (effects ready .new calls) ↔
      ready = false ∨ .run ∉ calls ∨ lateStops calls = 1 := by
  cases ready with
  | false =>
      refine iff_of_true ?_ (.inl rfl)
      rw [new, effects_unready]
      exact ⟨Nat.zero_le _, sounds_nil⟩
  | true =>
      rw [← sounds_new_iff false, or_iff_right Bool.true_eq_false.mp]
      exact ⟨fun orderly => orderly.sound,
        fun sounds => ⟨count_create_le_one false calls, sounds⟩⟩

end Worker

end RoboBand.Util
