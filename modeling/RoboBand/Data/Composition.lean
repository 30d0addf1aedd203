import RoboBand.Data.Machine

namespace RoboBand.Data.Machine

/-! How machines are put together: one behind the other, and many side by side
of which each sees its own part of the events. -/

section Pipe

variable {First Second Event Middle Output : Type*}

/-- What the first machine answers is what happens to the second. -/
def pipe (first : Machine First Event Middle)
    (second : Machine Second Middle Output) :
    Machine (First × Second) Event Output where
  step both event :=
    let after := first.step both.1 event
    ((after.1, second.exec both.2 after.2), second.outputs both.2 after.2)

theorem exec_pipe (first : Machine First Event Middle)
    (second : Machine Second Middle Output) (left : First) (right : Second)
    (events : List Event) :
    (first.pipe second).exec (left, right) events =
      (first.exec left events,
        second.exec right (first.outputs left events)) := by
  induction events generalizing left right with
  | nil => rfl
  | cons event rest ih =>
      rw [outputs_cons, exec_append]
      exact ih _ _

end Pipe

section Projection

variable {State Local Event Input Output Answer : Type*}

/-- In its place in the whole, the part goes through the steps that it would go
through alone, and gives the answers that it would give alone. -/
structure Projects (whole : Machine State Event Output)
    (part : Machine Local Input Answer) (invariant : State → Prop)
    (place : State → Local) (inputs : Event → List Input)
    (answer? : Output → Option Answer) : Prop where
  kept : ∀ state event, invariant state →
    invariant (whole.step state event).1
  moves : ∀ state event, invariant state →
    place (whole.step state event).1 = part.exec (place state) (inputs event)
  answers : ∀ state event, invariant state →
    (whole.step state event).2.filterMap answer? =
      part.outputs (place state) (inputs event)

variable {whole : Machine State Event Output}
  {part : Machine Local Input Answer} {invariant : State → Prop}
  {place : State → Local} {inputs : Event → List Input}
  {answer? : Output → Option Answer}

theorem Projects.exec
    (projects : Projects whole part invariant place inputs answer?)
    {state : State} (initially : invariant state) (events : List Event) :
    place (whole.exec state events) =
      part.exec (place state) (events.flatMap inputs) := by
  induction events generalizing state with
  | nil => rfl
  | cons event rest ih =>
      rw [exec_cons, ih (projects.kept state event initially),
        projects.moves state event initially, List.flatMap_cons, exec_append]

theorem Projects.outputs
    (projects : Projects whole part invariant place inputs answer?)
    {state : State} (initially : invariant state) (events : List Event) :
    (whole.outputs state events).filterMap answer? =
      part.outputs (place state) (events.flatMap inputs) := by
  induction events generalizing state with
  | nil => rfl
  | cons event rest ih =>
      rw [outputs_cons, List.filterMap_append,
        ih (projects.kept state event initially),
        projects.answers state event initially,
        projects.moves state event initially, List.flatMap_cons,
        outputs_append]

end Projection

end RoboBand.Data.Machine
