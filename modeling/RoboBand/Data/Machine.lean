import Mathlib.Data.List.Induction

namespace RoboBand.Data

/-! Deterministic machines that answer every event with a list of outputs.
A run is read left to right; nothing is said about who produces the events. -/

structure Machine (State Event Output : Type*) where
  step : State → Event → State × List Output

namespace Machine

variable {State State' Event Output : Type*}

def exec (machine : Machine State Event Output) : State → List Event → State
  | state, [] => state
  | state, event :: rest => machine.exec (machine.step state event).1 rest

def outputs (machine : Machine State Event Output) :
    State → List Event → List Output
  | _, [] => []
  | state, event :: rest =>
      (machine.step state event).2 ++
        machine.outputs (machine.step state event).1 rest

def Admits (machine : Machine State Event Output)
    (allowed : State → Event → Prop) : State → List Event → Prop
  | _, [] => True
  | state, event :: rest =>
      allowed state event ∧
        machine.Admits allowed (machine.step state event).1 rest

instance instDecidableAdmits (machine : Machine State Event Output)
    (allowed : State → Event → Prop)
    [decide : ∀ state event, Decidable (allowed state event)] :
    (state : State) → (events : List Event) →
      Decidable (machine.Admits allowed state events)
  | _, [] => isTrue trivial
  | state, event :: rest =>
      have := instDecidableAdmits machine allowed
        (machine.step state event).1 rest
      inferInstanceAs (Decidable (_ ∧ _))

@[simp] theorem exec_nil (machine : Machine State Event Output)
    (state : State) : machine.exec state [] = state := rfl

@[simp] theorem exec_cons (machine : Machine State Event Output)
    (state : State) (event : Event) (rest : List Event) :
    machine.exec state (event :: rest) =
      machine.exec (machine.step state event).1 rest := rfl

@[simp] theorem outputs_nil (machine : Machine State Event Output)
    (state : State) : machine.outputs state [] = [] := rfl

@[simp] theorem outputs_cons (machine : Machine State Event Output)
    (state : State) (event : Event) (rest : List Event) :
    machine.outputs state (event :: rest) =
      (machine.step state event).2 ++
        machine.outputs (machine.step state event).1 rest := rfl

@[simp] theorem admits_nil (machine : Machine State Event Output)
    (allowed : State → Event → Prop) (state : State) :
    machine.Admits allowed state [] := trivial

@[simp] theorem admits_cons (machine : Machine State Event Output)
    (allowed : State → Event → Prop) (state : State)
    (event : Event) (rest : List Event) :
    machine.Admits allowed state (event :: rest) ↔
      allowed state event ∧
        machine.Admits allowed (machine.step state event).1 rest := Iff.rfl

theorem admits_append (machine : Machine State Event Output)
    (allowed : State → Event → Prop) (state : State)
    (first second : List Event) :
    machine.Admits allowed state (first ++ second) ↔
      machine.Admits allowed state first ∧
        machine.Admits allowed (machine.exec state first) second := by
  induction first generalizing state with
  | nil => simp
  | cons event rest ih =>
      simp only [List.cons_append, admits_cons, exec_cons, ih, and_assoc]

theorem exec_append (machine : Machine State Event Output)
    (state : State) (first second : List Event) :
    machine.exec state (first ++ second) =
      machine.exec (machine.exec state first) second := by
  induction first generalizing state with
  | nil => rfl
  | cons event rest ih => exact ih _

theorem outputs_append (machine : Machine State Event Output)
    (state : State) (first second : List Event) :
    machine.outputs state (first ++ second) =
      machine.outputs state first ++
        machine.outputs (machine.exec state first) second := by
  induction first generalizing state with
  | nil => rfl
  | cons event rest ih =>
      simp only [List.cons_append, outputs_cons, exec_cons, ih,
        List.append_assoc]

/-- Where no step answers twice, each answer of a run has its own event. -/
theorem exists_event_of_outputs {Answer : Type*}
    {machine : Machine State Event Output} {answer? : Output → Option Answer}
    (single : ∀ state event,
      ((machine.step state event).2.filterMap answer?).length ≤ 1)
    {state : State} {events : List Event} {earlier later : List Answer}
    {answer : Answer}
    (answers : (machine.outputs state events).filterMap answer? =
      earlier ++ answer :: later) :
    ∃ before event after, events = before ++ event :: after ∧
      (machine.outputs state before).filterMap answer? = earlier ∧
      (machine.step (machine.exec state before) event).2.filterMap answer? =
        [answer] ∧
      (machine.outputs (machine.step (machine.exec state before) event).1
        after).filterMap answer? = later := by
  induction events generalizing state earlier with
  | nil =>
      obtain ⟨_, none⟩ := List.nil_eq_append_iff.mp answers
      cases none
  | cons event rest ih =>
      rw [outputs_cons, List.filterMap_append] at answers
      obtain none | ⟨here, one⟩ := Nat.le_one_iff_eq_zero_or_eq_one.mp
        (single state event) |>.imp List.length_eq_zero_iff.mp
          List.length_eq_one_iff.mp
      · rw [none, List.nil_append] at answers
        obtain ⟨before, event', after, rfl, quiet, answered, onward⟩ :=
          ih answers
        refine ⟨event :: before, event', after, rfl, ?_, answered, onward⟩
        rw [outputs_cons, List.filterMap_append, none, quiet, List.nil_append]
      · rw [one] at answers
        cases earlier with
        | nil =>
            obtain ⟨rfl, onward⟩ := List.cons.inj answers
            exact ⟨[], event, rest, rfl, rfl, one, onward⟩
        | cons first earlier =>
            obtain ⟨rfl, onward⟩ := List.cons.inj answers
            obtain ⟨before, event', after, rfl, quiet, answered, later⟩ :=
              ih onward
            refine ⟨event :: before, event', after, rfl, ?_, answered, later⟩
            rw [outputs_cons, List.filterMap_append, one, quiet,
              List.singleton_append]

/-- A state that no step leaves answers each event by itself. -/
theorem outputs_of_fixed {machine : Machine State Event Output}
    {state : State} (fixed : ∀ event, (machine.step state event).1 = state)
    (events : List Event) :
    machine.outputs state events =
      events.flatMap fun event => (machine.step state event).2 := by
  induction events with
  | nil => rfl
  | cons event rest ih => rw [outputs_cons, fixed, ih, List.flatMap_cons]

/-- An invariant that every step keeps holds after every run. -/
theorem exec_invariant {machine : Machine State Event Output}
    {invariant : State → Prop}
    (kept : ∀ state event, invariant state →
      invariant (machine.step state event).1)
    {state : State} (initially : invariant state) (events : List Event) :
    invariant (machine.exec state events) := by
  induction events generalizing state with
  | nil => exact initially
  | cons event rest ih => exact ih (kept state event initially)

theorem exec_invariant_of_admits {machine : Machine State Event Output}
    {allowed : State → Event → Prop} {invariant : State → Prop}
    (kept : ∀ state event, invariant state → allowed state event →
      invariant (machine.step state event).1)
    {state : State} (initially : invariant state) {events : List Event}
    (admitted : machine.Admits allowed state events) :
    invariant (machine.exec state events) := by
  induction events generalizing state with
  | nil => exact initially
  | cons event rest ih =>
      exact ih (kept state event initially admitted.1) admitted.2

theorem exec_invariant_of_forall {machine : Machine State Event Output}
    {good : Event → Prop} {invariant : State → Prop}
    (kept : ∀ state event, invariant state → good event →
      invariant (machine.step state event).1)
    {state : State} (initially : invariant state) {events : List Event}
    (all : ∀ event ∈ events, good event) :
    invariant (machine.exec state events) := by
  induction events generalizing state with
  | nil => exact initially
  | cons event rest ih =>
      obtain ⟨here, later⟩ := List.forall_mem_cons.mp all
      exact ih (kept state event initially here) later

/-- Where an invariant makes every step answer well, every run answers well. -/
theorem forall_outputs_of_admits {machine : Machine State Event Output}
    {allowed : State → Event → Prop} {invariant : State → Prop}
    {good : Output → Prop}
    (kept : ∀ state event, invariant state → allowed state event →
      invariant (machine.step state event).1)
    (answers : ∀ state event, invariant state → allowed state event →
      ∀ output ∈ (machine.step state event).2, good output)
    {state : State} (initially : invariant state) {events : List Event}
    (admitted : machine.Admits allowed state events) :
    ∀ output ∈ machine.outputs state events, good output := by
  induction events generalizing state with
  | nil => exact fun _ member => nomatch member
  | cons event rest ih =>
      rw [outputs_cons, List.forall_mem_append]
      exact ⟨answers state event initially admitted.1,
        ih (kept state event initially admitted.1) admitted.2⟩

/-- An invariant of the state and of the events that led to it. -/
theorem exec_history {machine : Machine State Event Output} {start : State}
    {invariant : List Event → State → Prop} (initially : invariant [] start)
    (kept : ∀ events state event, machine.exec start events = state →
      invariant events state →
      invariant (events ++ [event]) (machine.step state event).1)
    (events : List Event) : invariant events (machine.exec start events) := by
  induction events using List.reverseRecOn with
  | nil => exact initially
  | append_singleton events event ih =>
      rw [exec_append]
      exact kept events _ event rfl ih

/-- The machine with somebody who reads its outputs as they come. -/
def observed {Seen : Type*} (machine : Machine State Event Output)
    (observe : Seen → Output → Seen) :
    Machine (State × Seen) Event Output where
  step both event :=
    let after := machine.step both.1 event
    ((after.1, after.2.foldl observe both.2), after.2)

theorem exec_observed {Seen : Type*} (machine : Machine State Event Output)
    (observe : Seen → Output → Seen) (state : State) (seen : Seen)
    (events : List Event) :
    (machine.observed observe).exec (state, seen) events =
      (machine.exec state events,
        (machine.outputs state events).foldl observe seen) := by
  induction events generalizing state seen with
  | nil => rfl
  | cons event rest ih =>
      rw [outputs_cons, List.foldl_append]
      exact ih _ _

/-- The machine with each output beside the events that led up to it since the
output before. -/
def spanned (machine : Machine State Event Output) :
    Machine (State × List Event) Event (Output × List Event) where
  step both event :=
    let after := machine.step both.1 event
    let span := both.2 ++ [event]
    ((after.1, if after.2.isEmpty then span else []), after.2.map (·, span))

theorem outputs_spanned (machine : Machine State Event Output) (state : State)
    (span events : List Event) :
    (machine.spanned.outputs (state, span) events).map Prod.fst =
      machine.outputs state events := by
  induction events generalizing state span with
  | nil => rfl
  | cons event rest ih =>
      rw [outputs_cons, List.map_append, outputs_cons]
      refine congrArg₂ _ ?_ (ih _ _)
      exact List.map_map.trans (List.map_id _)

theorem admits_spanned (machine : Machine State Event Output)
    (allowed : State → Event → Prop) (state : State)
    (span events : List Event) :
    machine.spanned.Admits (fun both => allowed both.1) (state, span) events ↔
      machine.Admits allowed state events := by
  induction events generalizing state span with
  | nil => exact Iff.rfl
  | cons event rest ih => exact and_congr_right' (ih _ _)

/-- Two machines whose states stay related, and which answer alike from
related states, answer every run alike. -/
theorem outputs_eq_of_simulation
    {left : Machine State Event Output} {right : Machine State' Event Output}
    {related : State → State' → Prop}
    (kept : ∀ state state' event, related state state' →
      related (left.step state event).1 (right.step state' event).1)
    (answers : ∀ state state' event, related state state' →
      (left.step state event).2 = (right.step state' event).2)
    {state : State} {state' : State'} (initially : related state state')
    (events : List Event) :
    left.outputs state events = right.outputs state' events := by
  induction events generalizing state state' with
  | nil => rfl
  | cons event rest ih =>
      rw [outputs_cons, outputs_cons, answers state state' event initially,
        ih (kept state state' event initially)]

end Machine

end RoboBand.Data
