import RoboBand.Data.Machine

namespace RoboBand.Data

/-! Programs of a thread, as trees: each call of what lies outside of the
thread branches on its answer. -/

inductive Program (Op : Type) (Ret : Op → Type) (Result : Type) where
  | returns (result : Result)
  | calls (op : Op) (next : Ret op → Program Op Ret Result)

namespace Program

variable {Op : Type} {Ret : Op → Type} {Result Other : Type}

def bind : Program Op Ret Result → (Result → Program Op Ret Other) →
    Program Op Ret Other
  | .returns result, rest => rest result
  | .calls op next, rest => .calls op fun answer => (next answer).bind rest

instance : Monad (Program Op Ret) where
  pure := .returns
  bind := bind

def perform (op : Op) : Program Op Ret (Ret op) := .calls op .returns

section Ensures

/-- Whatever its calls answer, the calls and the result of the program are such
as `post` says. -/
def Ensures : Program Op Ret Result → (List (Sigma Ret) → Result → Prop) →
    Prop
  | .returns result, post => post [] result
  | .calls op next, post => ∀ answer, (next answer).Ensures
      fun acts result => post (⟨op, answer⟩ :: acts) result

variable {post : List (Sigma Ret) → Result → Prop}

@[simp] theorem ensures_bind {post : List (Sigma Ret) → Other → Prop}
    (program : Program Op Ret Result)
    (rest : Result → Program Op Ret Other) :
    (program >>= rest).Ensures post ↔
      program.Ensures fun before middle =>
        (rest middle).Ensures fun after result =>
          post (before ++ after) result := by
  change (program.bind rest).Ensures post ↔ _
  induction program generalizing post with
  | returns result => rfl
  | calls op next ih => exact forall_congr' fun answer => ih answer

theorem Ensures.mono {program : Program Op Ret Result}
    {other : List (Sigma Ret) → Result → Prop}
    (ensures : program.Ensures post)
    (weaker : ∀ acts result, post acts result → other acts result) :
    program.Ensures other := by
  induction program generalizing post other with
  | returns result => exact weaker [] result ensures
  | calls op next ih =>
      exact fun answer => ih answer (ensures answer)
        fun acts result => weaker (⟨op, answer⟩ :: acts) result

theorem Ensures.bind {program : Program Op Ret Result}
    {rest : Result → Program Op Ret Other}
    {post : List (Sigma Ret) → Other → Prop}
    {between : List (Sigma Ret) → Result → Prop}
    (ensures : program.Ensures between)
    (onward : ∀ before middle, between before middle →
      (rest middle).Ensures fun after result =>
        post (before ++ after) result) :
    (program >>= rest).Ensures post :=
  (ensures_bind program rest).mpr (ensures.mono onward)

theorem Ensures.exists_acts [∀ op, Nonempty (Ret op)]
    {program : Program Op Ret Result} (ensures : program.Ensures post) :
    ∃ acts result, post acts result := by
  induction program generalizing post with
  | returns result => exact ⟨[], result, ensures⟩
  | calls op next ih =>
      have answer : Ret op := Classical.ofNonempty
      obtain ⟨acts, result, holds⟩ := ih answer (ensures answer)
      exact ⟨⟨op, answer⟩ :: acts, result, holds⟩

end Ensures

end Program

/-- What lies outside of a thread: events happen to it, and it answers. -/
structure World (Op : Type) (Ret : Op → Type) (State Event : Type*) where
  happen : State → Event → State
  answer : State → (op : Op) → State × Ret op

inductive ThreadEvent (Event : Type*) where
  | outside (event : Event)
  | turn

def ThreadEvent.map {Event Other : Type*} (f : Event → Other) :
    ThreadEvent Event → ThreadEvent Other
  | .outside event => .outside (f event)
  | .turn => .turn

def ThreadEvent.outside? {Event : Type*} : ThreadEvent Event → Option Event
  | .outside event => some event
  | .turn => none

namespace World

variable {Op : Type} {Ret : Op → Type} {Local : Type} {State Event : Type*}

/-- A thread that runs `body` again and again while other things happen. -/
def loop (world : World Op Ret State Event)
    (body : Local → Program Op Ret Local) :
    Machine (State × Program Op Ret Local) (ThreadEvent Event)
      (Sigma Ret) where
  step both
    | .outside event => ((world.happen both.1 event, both.2), [])
    | .turn =>
        match both.2 with
        | .returns result => ((both.1, body result), [])
        | .calls op next =>
            let answered := world.answer both.1 op
            ((answered.1, next answered.2), [⟨op, answered.2⟩])

variable {world : World Op Ret State Event}
  {body : Local → Program Op Ret Local} {invariant : Local → Prop}
  {round : List (Sigma Ret) → Prop}

/-- What the thread calls are whole rounds, and the beginning of one more. -/
theorem loop_outputs_of_running [∀ op, Nonempty (Ret op)]
    (keeps : ∀ here, invariant here → (body here).Ensures
      fun acts next => round acts ∧ invariant next)
    (state : State) {program : Program Op Ret Local}
    (before : List (Sigma Ret))
    (running : program.Ensures
      fun acts next => round (before ++ acts) ∧ invariant next)
    (events : List (ThreadEvent Event)) :
    ∃ rounds : List (List (Sigma Ret)), (∀ acts ∈ rounds, round acts) ∧
      before ++ (world.loop body).outputs (state, program) events <+:
        rounds.flatten := by
  induction events generalizing state program before with
  | nil =>
      obtain ⟨acts, next, whole, _⟩ := running.exists_acts
      refine ⟨[before ++ acts], List.forall_mem_singleton.mpr whole, ?_⟩
      rw [Machine.outputs_nil, List.append_nil, List.flatten_singleton]
      exact List.prefix_append before acts
  | cons event rest ih =>
      cases event with
      | outside event => exact ih _ before running
      | turn =>
          cases program with
          | returns result =>
              obtain ⟨whole, kept⟩ := running
              rw [List.append_nil] at whole
              obtain ⟨rounds, all, begins⟩ := ih state [] (keeps result kept)
              refine ⟨before :: rounds,
                List.forall_mem_cons.mpr ⟨whole, all⟩, ?_⟩
              exact (List.prefix_append_right_inj before).mpr begins
          | calls op next =>
              let answered := world.answer state op
              have onward : (next answered.2).Ensures fun acts after =>
                  round ((before ++ [⟨op, answered.2⟩]) ++ acts) ∧
                    invariant after := by
                simpa only [List.append_assoc, List.singleton_append]
                  using running answered.2
              obtain ⟨rounds, all, begins⟩ := ih answered.1 _ onward
              rw [List.append_assoc] at begins
              exact ⟨rounds, all, begins⟩

theorem loop_outputs [∀ op, Nonempty (Ret op)]
    (keeps : ∀ here, invariant here → (body here).Ensures
      fun acts next => round acts ∧ invariant next)
    {here : Local} (initially : invariant here) (state : State)
    (events : List (ThreadEvent Event)) :
    ∃ rounds : List (List (Sigma Ret)), (∀ acts ∈ rounds, round acts) ∧
      (world.loop body).outputs (state, body here) events <+:
        rounds.flatten :=
  loop_outputs_of_running keeps state [] (keeps here initially) events

/-- What all that happens and every answer keep of the world, and what the
answers show of it. -/
theorem forall_mem_loop_outputs {holds : State → Prop}
    {good : Sigma Ret → Prop} {events : List (ThreadEvent Event)}
    (happens : ∀ state event, .outside event ∈ events → holds state →
      holds (world.happen state event))
    (answers : ∀ state op, holds state →
      holds (world.answer state op).1 ∧ good ⟨op, (world.answer state op).2⟩)
    {state : State} (initially : holds state)
    (program : Program Op Ret Local) :
    ∀ act ∈ (world.loop body).outputs (state, program) events, good act := by
  induction events generalizing state program with
  | nil => exact fun act member => absurd member List.not_mem_nil
  | cons event rest ih =>
      have later : ∀ state event, .outside event ∈ rest → holds state →
          holds (world.happen state event) := fun state event member =>
        happens state event (List.mem_cons_of_mem _ member)
      cases event with
      | outside event =>
          exact ih later (happens state event List.mem_cons_self initially)
            program
      | turn =>
          cases program with
          | returns result => exact ih later initially (body result)
          | calls op next =>
              obtain ⟨kept, shown⟩ := answers state op initially
              exact List.forall_mem_cons.mpr ⟨shown, ih later kept _⟩

/-- What makes no difference outside of the thread makes none to the thread,
and none to what is left outside. -/
theorem loop_map {holds : State → Prop} {f : Event → Event}
    (happens : ∀ state event, holds state → holds (world.happen state event))
    (blind : ∀ state event, holds state →
      world.happen state (f event) = world.happen state event)
    (answers : ∀ state op, holds state → holds (world.answer state op).1)
    {state : State} (initially : holds state)
    (program : Program Op Ret Local) (events : List (ThreadEvent Event)) :
    (world.loop body).outputs (state, program)
          (events.map (ThreadEvent.map f)) =
        (world.loop body).outputs (state, program) events ∧
      (world.loop body).exec (state, program)
          (events.map (ThreadEvent.map f)) =
        (world.loop body).exec (state, program) events := by
  induction events generalizing state program with
  | nil => exact ⟨rfl, rfl⟩
  | cons event rest ih =>
      cases event with
      | outside event =>
          have same : (world.loop body).step (state, program)
              (.outside (f event)) =
              (world.loop body).step (state, program) (.outside event) := by
            simp only [loop, blind state event initially]
          rw [List.map_cons, ThreadEvent.map, Machine.outputs_cons,
            Machine.outputs_cons, Machine.exec_cons, Machine.exec_cons, same]
          obtain ⟨outputs, exec⟩ := ih (happens state event initially) program
          exact ⟨congrArg _ outputs, exec⟩
      | turn =>
          cases program with
          | returns result => exact ih initially (body result)
          | calls op next =>
              obtain ⟨outputs, exec⟩ := ih (answers state op initially)
                (next (world.answer state op).2)
              exact ⟨congrArg (List.cons _) outputs, exec⟩

end World

end RoboBand.Data
