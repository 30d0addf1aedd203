import Mathlib.Data.List.Basic
import Mathlib.Logic.Function.Basic
import RoboBand.Data.Machine

namespace RoboBand.Data

/-! A thread that starts and stops others by a script.  Each of the others runs
its body again and again while its flag is set.  It looks at the flag between
two runs of the body, and the flag may be cleared between a look and the body
behind it. -/

inductive Instr (Part Note : Type) where
  | note (note : Note)
  | start (part : Part)
  | wait
  | stop (part : Part)

inductive Act (Part Note : Type) where
  | noted (note : Note)
  | started (part : Part)
  | cleared (part : Part)
  | joined (part : Part)
  | began (part : Part)
  | ended (part : Part)

def Act.ofMain {Part Note : Type} : Act Part Note → Bool
  | .noted _ | .started _ | .cleared _ | .joined _ => true
  | .began _ | .ended _ => false

/-- Where a thread stands: not there yet, about to look at its flag, about to
begin its body, in its body, or behind its loop. -/
inductive PartPoint where
  | absent
  | top
  | entering
  | body
  | behind
  deriving DecidableEq

def PartPoint.Live : PartPoint → Prop
  | .top | .entering | .body => True
  | .absent | .behind => False

structure PartState where
  point : PartPoint
  flag : Bool

/-- The script that is left, and whether the flag of its first thread has been
cleared, which is to be joined now. -/
structure Supervisor (Part Note : Type) where
  rest : List (Instr Part Note)
  joining : Bool
  parts : Part → PartState

/-- One thread makes its next step; `waiting` is whether the supervisor still
finds that it has to wait. -/
inductive SupervisorEvent (Part : Type) where
  | main (waiting : Bool)
  | part (part : Part)

namespace Supervisor

variable {Part Note : Type}

/-- What the supervisor does in the course of a script. -/
def actsOf : List (Instr Part Note) → List (Act Part Note)
  | [] => []
  | .note note :: rest => .noted note :: actsOf rest
  | .start part :: rest => .started part :: actsOf rest
  | .wait :: rest => actsOf rest
  | .stop part :: rest => .cleared part :: .joined part :: actsOf rest

theorem actsOf_append (first second : List (Instr Part Note)) :
    actsOf (first ++ second) = actsOf first ++ actsOf second := by
  induction first with
  | nil => rfl
  | cons instr rest ih => cases instr <;> simp [actsOf, ih]

theorem noted_mem_actsOf {script : List (Instr Part Note)} {note : Note} :
    .noted note ∈ actsOf script ↔ .note note ∈ script := by
  induction script with
  | nil => simp [actsOf]
  | cons instr rest ih => cases instr <;> simp [actsOf, ih]

theorem started_mem_actsOf {script : List (Instr Part Note)} {part : Part} :
    .started part ∈ actsOf script ↔ .start part ∈ script := by
  induction script with
  | nil => simp [actsOf]
  | cons instr rest ih => cases instr <;> simp [actsOf, ih]

theorem cleared_mem_actsOf {script : List (Instr Part Note)} {part : Part} :
    .cleared part ∈ actsOf script ↔ .stop part ∈ script := by
  induction script with
  | nil => simp [actsOf]
  | cons instr rest ih => cases instr <;> simp [actsOf, ih]

theorem joined_mem_actsOf {script : List (Instr Part Note)} {part : Part} :
    .joined part ∈ actsOf script ↔ .stop part ∈ script := by
  induction script with
  | nil => simp [actsOf]
  | cons instr rest ih => cases instr <;> simp [actsOf, ih]

/-- What the supervisor has still to do. -/
def pending (state : Supervisor Part Note) : List (Act Part Note) :=
  if state.joining then (actsOf state.rest).tail else actsOf state.rest

def begin (script : List (Instr Part Note)) : Supervisor Part Note where
  rest := script
  joining := false
  parts _ := ⟨.absent, false⟩

section Step

variable [DecidableEq Part] (state : Supervisor Part Note)

def setPart (part : Part) (next : PartState) : Supervisor Part Note :=
  { state with parts := Function.update state.parts part next }

/-- A thread that is already there is not started once more. -/
def startPart (part : Part) : Supervisor Part Note :=
  match (state.parts part).point with
  | .absent => state.setPart part ⟨.top, true⟩
  | .top | .entering | .body | .behind => state

@[simp] theorem parts_setPart_self (part : Part) (next : PartState) :
    (state.setPart part next).parts part = next := by
  rw [setPart]
  exact Function.update_self _ _ _

theorem parts_setPart_of_ne {other part : Part} (ne : other ≠ part)
    (next : PartState) :
    (state.setPart part next).parts other = state.parts other := by
  rw [setPart]
  exact Function.update_of_ne ne _ _

@[simp] theorem joining_startPart (part : Part) :
    (state.startPart part).joining = state.joining := by
  unfold startPart
  split <;> rfl

def mainTurn (waiting : Bool) :
    Supervisor Part Note × List (Act Part Note) :=
  match state.rest with
  | [] => (state, [])
  | .note note :: rest => ({ state with rest := rest }, [.noted note])
  | .start part :: rest =>
      ({ state.startPart part with rest := rest }, [.started part])
  | .wait :: rest =>
      if waiting then (state, []) else ({ state with rest := rest }, [])
  | .stop part :: rest =>
      let here := state.parts part
      if state.joining then
        match here.point with
        | .absent | .behind =>
            ({ state with rest := rest, joining := false }, [.joined part])
        | .top | .entering | .body => (state, [])
      else
        ({ state.setPart part { here with flag := false } with
            joining := true }, [.cleared part])

def partTurn (part : Part) : Supervisor Part Note × List (Act Part Note) :=
  let here := state.parts part
  match here.point with
  | .absent | .behind => (state, [])
  | .top =>
      if here.flag then
        (state.setPart part { here with point := .entering }, [])
      else
        (state.setPart part { here with point := .behind }, [])
  | .entering =>
      (state.setPart part { here with point := .body }, [.began part])
  | .body => (state.setPart part { here with point := .top }, [.ended part])

end Step

def machine [DecidableEq Part] :
    Machine (Supervisor Part Note) (SupervisorEvent Part) (Act Part Note) where
  step state
    | .main waiting => state.mainTurn waiting
    | .part part => state.partTurn part

/-! What a step can be, with what it needs and what it leaves. -/

inductive Turn [DecidableEq Part] (state : Supervisor Part Note) :
    Supervisor Part Note → List (Act Part Note) → Prop
  | still : Turn state state []
  | note {note : Note} {rest : List (Instr Part Note)}
      (script : state.rest = .note note :: rest) :
      Turn state { state with rest := rest } [.noted note]
  | start {part : Part} {rest : List (Instr Part Note)}
      (script : state.rest = .start part :: rest) :
      Turn state { state.startPart part with rest := rest } [.started part]
  | leave {rest : List (Instr Part Note)}
      (script : state.rest = .wait :: rest) :
      Turn state { state with rest := rest } []
  | clear {part : Part} {rest : List (Instr Part Note)}
      (script : state.rest = .stop part :: rest)
      (yet : state.joining = false) :
      Turn state { state.setPart part { state.parts part with flag := false }
        with joining := true } [.cleared part]
  | join {part : Part} {rest : List (Instr Part Note)}
      (script : state.rest = .stop part :: rest)
      (joining : state.joining = true)
      (gone : (state.parts part).point = .absent ∨
        (state.parts part).point = .behind) :
      Turn state { state with rest := rest, joining := false } [.joined part]
  | enters {part : Part} (top : (state.parts part).point = .top)
      (flag : (state.parts part).flag = true) :
      Turn state (state.setPart part ⟨.entering, true⟩) []
  | begins {part : Part} (entering : (state.parts part).point = .entering) :
      Turn state (state.setPart part { state.parts part with point := .body })
        [.began part]
  | leaves {part : Part} (top : (state.parts part).point = .top)
      (flag : (state.parts part).flag = false) :
      Turn state (state.setPart part ⟨.behind, false⟩) []
  | ends {part : Part} (body : (state.parts part).point = .body) :
      Turn state (state.setPart part { state.parts part with point := .top })
        [.ended part]

section Inversion

variable [DecidableEq Part]

theorem turn_main (state : Supervisor Part Note) (waiting : Bool) :
    Turn state (state.mainTurn waiting).1 (state.mainTurn waiting).2 := by
  unfold mainTurn
  split
  · exact .still
  · rename_i script
    exact .note script
  · rename_i script
    exact .start script
  · rename_i script
    split
    · exact .still
    · exact .leave script
  · rename_i part rest script
    dsimp only
    split
    · rename_i joining
      split
      · rename_i point
        exact .join script joining (Or.inl point)
      · rename_i point
        exact .join script joining (Or.inr point)
      · exact .still
      · exact .still
      · exact .still
    · rename_i yet
      exact .clear script (Bool.not_eq_true _ ▸ yet)

theorem turn_part (state : Supervisor Part Note) (part : Part) :
    Turn state (state.partTurn part).1 (state.partTurn part).2 := by
  unfold partTurn
  dsimp only
  split
  · exact .still
  · exact .still
  · rename_i top
    split
    · rename_i flag
      rw [flag]
      exact .enters top flag
    · rename_i flag
      rw [Bool.not_eq_true] at flag
      rw [flag]
      exact .leaves top flag
  · rename_i entering
    exact .begins entering
  · rename_i body
    exact .ends body

theorem turn (state : Supervisor Part Note) (event : SupervisorEvent Part) :
    Turn state (machine.step state event).1 (machine.step state event).2 := by
  cases event with
  | main waiting => exact turn_main state waiting
  | part part => exact turn_part state part

end Inversion

section Script

variable {state next : Supervisor Part Note} {acts : List (Act Part Note)}

/-- Only where a thread is to be stopped is one joined, and then its flag has
been cleared. -/
def Steady (state : Supervisor Part Note) : Prop :=
  state.joining = true → ∃ part rest, state.rest = .stop part :: rest ∧
    (state.parts part).flag = false

theorem steady_begin (script : List (Instr Part Note)) :
    Steady (begin script) := nofun

theorem Steady.not_joining (steady : Steady state)
    {instr : Instr Part Note} {rest : List (Instr Part Note)}
    (script : state.rest = instr :: rest) (other : ∀ part, instr ≠ .stop part) :
    state.joining = false := by
  refine Bool.eq_false_iff.mpr fun joining => ?_
  obtain ⟨part, _, stops, _⟩ := steady joining
  rw [script] at stops
  exact other part (List.cons.inj stops).1

variable [DecidableEq Part]

theorem Steady.setPart (steady : Steady state) {part : Part}
    {there : PartState} (kept : there.flag = (state.parts part).flag) :
    Steady (state.setPart part there) := by
  intro joining
  obtain ⟨stopped, rest, script, cleared⟩ := steady joining
  refine ⟨stopped, rest, script, ?_⟩
  by_cases same : stopped = part
  · subst same
    rw [parts_setPart_self, kept]
    exact cleared
  · rw [parts_setPart_of_ne state same]
    exact cleared

theorem Turn.steady (turn : Turn state next acts) (steady : Steady state) :
    Steady next := by
  cases turn with
  | still => exact steady
  | note script =>
      intro joining
      rw [steady.not_joining script nofun] at joining
      cases joining
  | start script =>
      intro joining
      rw [joining_startPart, steady.not_joining script nofun] at joining
      cases joining
  | leave script =>
      intro joining
      rw [steady.not_joining script nofun] at joining
      cases joining
  | clear script yet =>
      intro _
      refine ⟨_, _, script, ?_⟩
      exact congrArg PartState.flag (parts_setPart_self state _ _)
  | join script joining gone => exact nofun
  | enters top flag => exact steady.setPart flag.symm
  | begins entering => exact steady.setPart rfl
  | leaves top flag => exact steady.setPart flag.symm
  | ends body => exact steady.setPart rfl

theorem Turn.pending (turn : Turn state next acts) (steady : Steady state) :
    acts.filter Act.ofMain ++ next.pending = state.pending := by
  cases turn with
  | still => rfl
  | note script =>
      have yet := steady.not_joining script nofun
      simp only [Supervisor.pending, yet, script, actsOf]
      rfl
  | start script =>
      have yet := steady.not_joining script nofun
      simp only [Supervisor.pending, joining_startPart, yet, script, actsOf]
      rfl
  | leave script =>
      have yet := steady.not_joining script nofun
      simp only [Supervisor.pending, yet, script, actsOf]
      rfl
  | clear script yet =>
      simp only [Supervisor.pending, Supervisor.setPart, yet, script, actsOf]
      rfl
  | join script joining gone =>
      simp only [Supervisor.pending, joining, script, actsOf]
      rfl
  | enters top flag => rfl
  | begins entering => rfl
  | leaves top flag => rfl
  | ends body => rfl

theorem steady_exec (script : List (Instr Part Note))
    (events : List (SupervisorEvent Part)) :
    Steady (machine.exec (begin script) events) :=
  Machine.exec_invariant (fun state event steady =>
    (turn state event).steady steady) (steady_begin script) events

/-- The supervisor does what the script says, in its order. -/
theorem filter_outputs (script : List (Instr Part Note))
    (events : List (SupervisorEvent Part)) :
    (machine.outputs (begin script) events).filter Act.ofMain ++
        (machine.exec (begin script) events).pending = actsOf script := by
  induction events using List.reverseRecOn with
  | nil => rfl
  | append_singleton events event ih =>
      have turned := turn (machine.exec (begin script) events) event
      have onward := turned.pending (steady_exec script events)
      rw [Machine.exec_append, Machine.outputs_append, List.filter_append,
        List.append_assoc, ← ih, ← onward]
      simp

end Script

end Supervisor

end RoboBand.Data
