import Mathlib.Data.List.FinRange
import RoboBand.Ctrl.LifeCycle
import RoboBand.Data.SupervisorRun

namespace RoboBand.Robot

open Data Data.Supervisor Util

/-! `Robot::run` of the build for the robot, with the threads of its ios and of
its controllers.  What they call, `devInit` or a read or a task, comes back with
the next turn of the thread. -/

inductive Part (n m : ℕ) where
  | ctrl (index : Fin n)
  | io (index : Fin m)
  deriving DecidableEq

inductive Stage where
  | bindVirtualDev
  | devInit
  deriving DecidableEq

section Script

variable (n m : ℕ)

def ctrls : List (Part n m) := (List.finRange n).map .ctrl

def ios : List (Part n m) := (List.finRange m).map .io

def startUp : List (Instr (Part n m) Stage) :=
  .note .bindVirtualDev :: ((ios n m).map .start ++ [.note .devInit])

/-- What `Robot::run` does, `wait` being its loop. -/
def run : List (Instr (Part n m) Stage) :=
  startUp n m ++ ((ctrls n m).map .start ++ [.wait] ++
    (ctrls n m).map .stop ++ (ios n m).map .stop)

end Script

variable {n m : ℕ}

@[simp] theorem ctrl_mem_ctrls (index : Fin n) :
    .ctrl index ∈ ctrls n m := by
  simp [ctrls]

@[simp] theorem io_not_mem_ctrls (index : Fin m) : .io index ∉ ctrls n m := by
  simp [ctrls]

@[simp] theorem ctrl_not_mem_ios (index : Fin n) : .ctrl index ∉ ios n m := by
  simp [ios]

@[simp] theorem io_mem_ios (index : Fin m) : .io index ∈ ios n m := by
  simp [ios]

theorem forward_run : Forward (run n m) := by
  simp [Forward, run, startUp, List.pairwise_append, List.pairwise_map,
    List.pairwise_of_forall]

/-- What has to be done before a thread does something, and what must not be:
the controllers work between the start of the ios and their stop.  What is told
to stop may still begin one body. -/
def InOrder (before : List (Act (Part n m) Stage)) :
    Act (Part n m) Stage → Prop
  | .began (.io index) =>
      .noted .bindVirtualDev ∈ before ∧ .started (.io index) ∈ before ∧
        .joined (.io index) ∉ before ∧ NoneSince before (.io index)
  | .ended (.io index) =>
      .noted .bindVirtualDev ∈ before ∧ .started (.io index) ∈ before ∧
        .joined (.io index) ∉ before
  | .began (.ctrl index) =>
      (.noted .devInit ∈ before ∧ .started (.ctrl index) ∈ before ∧
          .joined (.ctrl index) ∉ before ∧ NoneSince before (.ctrl index)) ∧
        ∀ io, .started (.io io) ∈ before ∧ .cleared (.io io) ∉ before
  | .ended (.ctrl index) =>
      (.noted .devInit ∈ before ∧ .started (.ctrl index) ∈ before ∧
          .joined (.ctrl index) ∉ before) ∧
        ∀ io, .started (.io io) ∈ before ∧ .cleared (.io io) ∉ before
  | _ => True

section Order

variable {events : List (SupervisorEvent (Part n m))}
  {before after : List (Act (Part n m) Stage)}
  (split : machine.outputs (begin (run n m)) events = before ++ after)

include split

theorem bound_of_started {index : Fin m}
    (started : .started (.io index) ∈ before) :
    .noted .bindVirtualDev ∈ before := by
  have divided : run n m = [.note .bindVirtualDev] ++ (run n m).tail := rfl
  exact mem_of_script events split divided (by simp [actsOf])
    (by simp [actsOf]) rfl started

theorem ready_of_started {index : Fin n}
    (started : .started (.ctrl index) ∈ before) :
    .noted .devInit ∈ before ∧ ∀ io, .started (.io io) ∈ before := by
  have later : .started (.ctrl index) ∉ actsOf (startUp n m) := by
    simp [started_mem_actsOf, startUp]
  refine ⟨mem_of_script events split rfl ?_ later rfl started, fun io =>
    mem_of_script events split rfl ?_ later rfl started⟩
  · simp [noted_mem_actsOf, startUp]
  · simp [started_mem_actsOf, startUp]

theorem joined_of_cleared {io : Fin m} (cleared : .cleared (.io io) ∈ before)
    (index : Fin n) : .joined (.ctrl index) ∈ before := by
  have divided : run n m = (startUp n m ++ ((ctrls n m).map .start ++ [.wait] ++
      (ctrls n m).map .stop)) ++ (ios n m).map .stop :=
    (List.append_assoc _ _ _).symm
  have later : .cleared (.io io) ∉ actsOf (startUp n m ++
      ((ctrls n m).map .start ++ [.wait] ++ (ctrls n m).map .stop)) := by
    simp [cleared_mem_actsOf, startUp]
  refine mem_of_script events split divided ?_ later rfl cleared
  simp [joined_mem_actsOf]

end Order

/-- However the threads are interleaved, the ios only work on devices that are
bound, and the controllers only on devices that have been initialised, between
the start of all ios and the stop of the first. -/
theorem run_in_order {events : List (SupervisorEvent (Part n m))}
    {before after : List (Act (Part n m) Stage)} {act : Act (Part n m) Stage}
    (split : machine.outputs (begin (run n m)) events =
      before ++ act :: after) : InOrder before act := by
  have allowed := allowed_of_split forward_run events split
  cases act with
  | noted stage => trivial
  | started part => trivial
  | cleared part => trivial
  | joined part => trivial
  | began part =>
      obtain ⟨started, working, none⟩ := allowed
      cases part with
      | io index =>
          exact ⟨bound_of_started split started, started, working, none⟩
      | ctrl index =>
          obtain ⟨ready, served⟩ := ready_of_started split started
          exact ⟨⟨ready, started, working, none⟩, fun io => ⟨served io,
            fun cleared => working (joined_of_cleared split cleared index)⟩⟩
  | ended part =>
      obtain ⟨started, working⟩ := allowed
      cases part with
      | io index => exact ⟨bound_of_started split started, started, working⟩
      | ctrl index =>
          obtain ⟨ready, served⟩ := ready_of_started split started
          exact ⟨⟨ready, started, working⟩, fun io => ⟨served io,
            fun cleared => working (joined_of_cleared split cleared index)⟩⟩

/-- One controller and one io, and a task that begins once the controller has
been told to stop. -/
theorem run_in_order_of_task :
    let events : List (SupervisorEvent (Part 1 1)) :=
      [.main true, .main true, .part (.io 0), .part (.io 0), .main true,
        .main true, .part (.ctrl 0), .main false, .main true, .part (.ctrl 0)]
    let before : List (Act (Part 1 1) Stage) :=
      [.noted .bindVirtualDev, .started (.io 0), .began (.io 0),
        .noted .devInit, .started (.ctrl 0), .cleared (.ctrl 0)]
    machine.outputs (begin (run 1 1)) events =
        before ++ [.began (.ctrl 0)] ∧
      InOrder before (.began (.ctrl 0)) := by
  intro events before
  have split : machine.outputs (begin (run 1 1)) events =
      before ++ [.began (.ctrl 0)] := rfl
  exact ⟨split, run_in_order split⟩

theorem turnsOf_run : turnsOf (run n m) = 6 * (n + m) + 3 := by
  simp only [run, startUp, ctrls, ios, turnsOf_append, turnsOf_map_start,
    turnsOf_map_stop, turnsOf, List.length_map, List.length_finRange]
  omega

/-- Whatever has happened, once `running` is false the run comes to its end
after so many rounds in which every thread gets its turn, however they are
interleaved; then all has been done, and nothing is done any more. -/
theorem run_returns (events : List (SupervisorEvent (Part n m)))
    {rounds : List (List (SupervisorEvent (Part n m)))}
    (fair : ∀ round ∈ rounds, Fair round)
    (enough : 4 * (2 * (n + m) + 3) ≤ rounds.length) :
    let whole := events ++ rounds.flatten
    (machine.outputs (begin (run n m)) whole).filter Act.ofMain =
        actsOf (run n m) ∧
      ∀ later, machine.outputs (begin (run n m)) (whole ++ later) =
        machine.outputs (begin (run n m)) whole := by
  intro whole
  obtain ⟨steady, bound⟩ := rank_exec_le (steady_begin (run n m)) events
  have far : rank (begin (run n m)) ≤ 4 * (2 * (n + m) + 3) := by
    rw [rank_of_yet rfl, begin, turnsOf_run]
    omega
  have ended : (machine.exec (begin (run n m)) whole).rest = [] := by
    rw [Machine.exec_append]
    exact rest_exec_flatten steady fair (bound.trans (far.trans enough))
  have done := filter_outputs (run n m) whole
  refine ⟨?_, fun later => ?_⟩
  · have nothing : (machine.exec (begin (run n m)) whole).pending = [] := by
      simp [pending, ended, actsOf]
    rwa [nothing, List.append_nil] at done
  · refine outputs_at_end forward_run (fun part => ?_) ended later
    cases part <;> simp [run, startUp]

/-- One controller that is about to begin its task, and one io. -/
theorem run_returns_of_task :
    let events : List (SupervisorEvent (Part 1 1)) :=
      [.main true, .main true, .main true, .main true, .part (.ctrl 0),
        .main true]
    let round : List (SupervisorEvent (Part 1 1)) :=
      [.part (.ctrl 0), .part (.io 0), .main false]
    let whole := events ++ (List.replicate 28 round).flatten
    (machine.outputs (begin (run 1 1)) whole).filter Act.ofMain =
        actsOf (run 1 1) ∧
      ∀ later, machine.outputs (begin (run 1 1)) (whole ++ later) =
        machine.outputs (begin (run 1 1)) whole := by
  intro events round
  refine run_returns events (fun other member => ?_) (by simp)
  rw [List.eq_of_mem_replicate member]
  refine ⟨by simp [round], fun part => ?_⟩
  match part with
  | .ctrl 0 => exact List.mem_cons_self
  | .io 0 => exact List.mem_cons_of_mem _ List.mem_cons_self

section LifeCycle

/-- The members `thread` and `running` of an object that was not joined yet. -/
def workerOf (here : PartState) : Worker where
  thread := if here.point = .absent then none else some .joinable
  running := here.flag

/-- A part is started as the `run` of the object does it. -/
theorem workerOf_startPart (state : Supervisor (Part n m) Stage)
    (part : Part n m) :
    workerOf ((state.startPart part).parts part) =
      (Worker.run (workerOf (state.parts part))).1 := by
  rw [startPart]
  split
  · rename_i absent
    rw [parts_setPart_self, workerOf, workerOf, absent]
    rfl
  · rename_i top
    rw [workerOf, top]
    rfl
  · rename_i entering
    rw [workerOf, entering]
    rfl
  · rename_i body
    rw [workerOf, body]
    rfl
  · rename_i behind
    rw [workerOf, behind]
    rfl

/-- What is called on one of the objects. -/
def callsOn (part : Part n m) : List (Instr (Part n m) Stage) → List Call :=
  List.filterMap fun
    | .start other => if other = part then some .run else none
    | .stop other => if other = part then some .stop else none
    | .note _ | .wait => none

theorem filterMap_of_nodup {α β : Type} [DecidableEq α] {list : List α}
    (nodup : list.Nodup) (wanted : α) (result : β) :
    list.filterMap (fun other => if other = wanted then some result else none) =
      if wanted ∈ list then [result] else [] := by
  induction list with
  | nil => rfl
  | cons head rest ih =>
      obtain ⟨fresh, others⟩ := List.nodup_cons.mp nodup
      by_cases same : head = wanted
      · subst same
        simp [ih others, fresh]
      · simp [ih others, same, Ne.symm same]

theorem nodup_ctrls : (ctrls n m).Nodup :=
  (List.nodup_finRange n).map fun _ _ same => Part.ctrl.inj same

theorem nodup_ios : (ios n m).Nodup :=
  (List.nodup_finRange m).map fun _ _ same => Part.io.inj same

theorem callsOn_run (part : Part n m) :
    callsOn part (run n m) = [.run, .stop] := by
  have called := fun (parts : List (Part n m)) (nodup : parts.Nodup)
    (call : Call) => filterMap_of_nodup nodup part call
  cases part with
  | ctrl index =>
      simp [callsOn, run, startUp, List.filterMap_map, called _ nodup_ctrls,
        called _ nodup_ios]
  | io index =>
      simp [callsOn, run, startUp, List.filterMap_map, called _ nodup_ctrls,
        called _ nodup_ios]

/-- The run starts every worker, and stops it exactly once before it is
destroyed. -/
theorem run_lifeCycle :
    (∀ index, Orderly (Io.lifeCycle (callsOn (.io index) (run n m)))) ∧
      ∀ index,
        Orderly (Ctrl.Runner.lifeCycle (callsOn (.ctrl index) (run n m))) := by
  have once : Worker.lateStops [.run, .stop] = 1 := rfl
  refine ⟨fun index => ?_, fun index => ?_⟩
  · rw [callsOn_run]
    exact (Ctrl.io_orderly_iff _).mpr (Or.inr once)
  · rw [callsOn_run]
    exact (Ctrl.runner_orderly_iff _).mpr (Or.inr once)

end LifeCycle

end RoboBand.Robot
