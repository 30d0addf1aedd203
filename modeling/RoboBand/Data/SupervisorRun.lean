import RoboBand.Data.Supervisor

namespace RoboBand.Data.Supervisor

variable {Part Note : Type}

/-! What the threads of a supervisor do, and when, in every run. -/

section Threads

/-- No thread is started after it was stopped. -/
def Forward (script : List (Instr Part Note)) : Prop :=
  script.Pairwise fun earlier later =>
    ∀ part, later = .start part → earlier ≠ .stop part

/-- No body has begun since the flag of the thread was cleared. -/
def NoneSince (seen : List (Act Part Note)) (part : Part) : Prop :=
  ∀ earlier later, seen = earlier ++ .cleared part :: later →
    .began part ∉ later

/-- What has to have been done, or not to have been, before a thread does
something: behind the clearing of its flag it begins at most one body. -/
def Allowed (before : List (Act Part Note)) : Act Part Note → Prop
  | .began part => .started part ∈ before ∧ .joined part ∉ before ∧
      NoneSince before part
  | .ended part => .started part ∈ before ∧ .joined part ∉ before
  | _ => True

/-- What can be told from the state of a thread of what has been done. -/
structure Follows (seen : List (Act Part Note)) (part : Part)
    (here : PartState) : Prop where
  started : here.point ≠ .absent → .started part ∈ seen
  cleared : here.flag = true → .cleared part ∉ seen
  joined : here.point.Live → .joined part ∉ seen
  entering : here.point = .entering → NoneSince seen part

/-- What has been done, as far as the script and the threads show it. -/
structure Tracked (seen : List (Act Part Note))
    (state : Supervisor Part Note) : Prop where
  forward : Forward state.rest
  past : ∀ part, .cleared part ∈ seen ∨ .joined part ∈ seen →
    .start part ∉ state.rest
  follows : ∀ part, Follows seen part (state.parts part)

variable {state next : Supervisor Part Note} {seen acts : List (Act Part Note)}

theorem tracked_begin {script : List (Instr Part Note)}
    (forward : Forward script) : Tracked [] (begin script) where
  forward := forward
  past part stopped := by
    rcases stopped with cleared | joined
    · exact absurd cleared List.not_mem_nil
    · exact absurd joined List.not_mem_nil
  follows part := ⟨fun present => absurd rfl present, nofun,
    fun live => live.elim, nofun⟩

theorem noneSince_of_not_cleared {part : Part}
    (uncleared : .cleared part ∉ seen) : NoneSince seen part := by
  rintro earlier later rfl
  exact absurd (List.mem_append_right earlier List.mem_cons_self) uncleared

theorem NoneSince.append {part : Part} (none : NoneSince seen part)
    (began : .began part ∉ acts) : NoneSince (seen ++ acts) part := by
  intro earlier later split member
  rcases List.append_eq_append_iff.mp split with
    ⟨more, _, inside⟩ | ⟨more, before, behind⟩
  · exact began (inside ▸ List.mem_append_right more
      (List.mem_cons_of_mem _ member))
  · cases more with
    | nil =>
        rw [List.nil_append] at behind
        exact began (behind ▸ List.mem_cons_of_mem _ member)
    | cons head tail =>
        obtain ⟨rfl, joined⟩ := List.cons.inj behind
        rw [joined] at member
        rcases List.mem_append.mp member with early | now
        · exact none earlier tail before early
        · exact began now

theorem Follows.append {part : Part} {here : PartState}
    (follows : Follows seen part here) (cleared : .cleared part ∉ acts)
    (joined : .joined part ∉ acts) (began : .began part ∉ acts) :
    Follows (seen ++ acts) part here where
  started present := List.mem_append_left acts (follows.started present)
  cleared flag member := by
    rcases List.mem_append.mp member with before | now
    · exact follows.cleared flag before
    · exact cleared now
  joined live member := by
    rcases List.mem_append.mp member with before | now
    · exact follows.joined live before
    · exact joined now
  entering here := (follows.entering here).append began

/-- A thread that goes into its body or out of it. -/
theorem Follows.turned {part : Part} {here there : PartState}
    (follows : Follows seen part here) (live : here.point.Live)
    (sameFlag : there.flag = here.flag) (inside : there.point ≠ .entering)
    (cleared : .cleared part ∉ acts) (joined : .joined part ∉ acts) :
    Follows (seen ++ acts) part there where
  started _ := by
    refine List.mem_append_left acts (follows.started fun absent => ?_)
    rw [absent] at live
    exact live
  cleared flag member := by
    rcases List.mem_append.mp member with before | now
    · exact follows.cleared (sameFlag ▸ flag) before
    · exact cleared now
  joined _ member := by
    rcases List.mem_append.mp member with before | now
    · exact follows.joined live before
    · exact joined now
  entering point := absurd point inside

theorem Tracked.not_start_of_stop (tracked : Tracked seen state) {part : Part}
    {rest : List (Instr Part Note)} (script : state.rest = .stop part :: rest) :
    .start part ∉ rest := by
  intro member
  have forward := tracked.forward
  rw [script] at forward
  exact List.rel_of_pairwise_cons forward member part rfl rfl

theorem Tracked.advance (tracked : Tracked seen state)
    {instr : Instr Part Note} {rest : List (Instr Part Note)}
    (script : state.rest = instr :: rest) (left : next.rest = rest)
    (stopped : ∀ part, .cleared part ∈ acts ∨ .joined part ∈ acts →
      .start part ∉ rest)
    (follows : ∀ part, Follows (seen ++ acts) part (next.parts part)) :
    Tracked (seen ++ acts) next where
  forward := by
    have forward := tracked.forward
    rw [script] at forward
    rw [left]
    exact (List.pairwise_cons.mp forward).2
  past part there := by
    have before : .cleared part ∈ seen ∨ .joined part ∈ seen →
        .start part ∉ rest := fun there member =>
      tracked.past part there (script ▸ List.mem_cons_of_mem instr member)
    rw [left]
    simp only [List.mem_append] at there
    rcases there with (cleared | now) | (joined | now)
    · exact before (Or.inl cleared)
    · exact stopped part (Or.inl now)
    · exact before (Or.inr joined)
    · exact stopped part (Or.inr now)
  follows := follows

variable [DecidableEq Part]

theorem forall_setPart {holds : Part → PartState → Prop} {part : Part}
    {there : PartState} (here : holds part there)
    (others : ∀ other, other ≠ part → holds other (state.parts other)) :
    ∀ other, holds other ((state.setPart part there).parts other) := by
  intro other
  by_cases same : other = part
  · rw [same, parts_setPart_self]
    exact here
  · rw [parts_setPart_of_ne state same]
    exact others other same

theorem forall_startPart {holds : Part → PartState → Prop} {part : Part}
    (here : holds part ⟨.top, true⟩)
    (others : ∀ other, holds other (state.parts other)) :
    ∀ other, holds other ((state.startPart part).parts other) := by
  unfold startPart
  split
  · exact forall_setPart here fun other _ => others other
  · exact others
  · exact others
  · exact others
  · exact others

/-- A thread by itself: nothing changes in the script. -/
theorem Tracked.setPart (tracked : Tracked seen state) {part : Part}
    {there : PartState} (cleared : ∀ part, .cleared part ∉ acts)
    (joined : ∀ part, .joined part ∉ acts)
    (began : ∀ other, other ≠ part → .began other ∉ acts)
    (here : Follows (seen ++ acts) part there) :
    Tracked (seen ++ acts) (state.setPart part there) where
  forward := tracked.forward
  past other stopped := by
    refine tracked.past other ?_
    rcases stopped with before | before
    · exact Or.inl ((List.mem_append.mp before).resolve_right (cleared other))
    · exact Or.inr ((List.mem_append.mp before).resolve_right (joined other))
  follows := forall_setPart here fun other ne =>
    (tracked.follows other).append (cleared other) (joined other)
      (began other ne)

theorem Turn.tracked (turn : Turn state next acts)
    (tracked : Tracked seen state) : Tracked (seen ++ acts) next := by
  cases turn with
  | still =>
      rw [List.append_nil]
      exact tracked
  | note script =>
      refine tracked.advance script rfl (by simp) fun part => ?_
      exact (tracked.follows part).append (by simp) (by simp) (by simp)
  | leave script =>
      refine tracked.advance script rfl (by simp) fun part => ?_
      exact (tracked.follows part).append (by simp) (by simp) (by simp)
  | @start part rest script =>
      refine tracked.advance script rfl (by simp) (forall_startPart ?_ ?_)
      · have unstopped : ¬(.cleared part ∈ seen ∨ .joined part ∈ seen) :=
          fun stopped => tracked.past part stopped
            (script ▸ List.mem_cons_self)
        exact ⟨fun _ => by simp, fun _ => by simp [not_or.mp unstopped],
          fun _ => by simp [not_or.mp unstopped], nofun⟩
      · exact fun other =>
          (tracked.follows other).append (by simp) (by simp) (by simp)
  | @clear part rest script yet =>
      have here := tracked.follows part
      refine ⟨tracked.forward, fun other there => ?_, forall_setPart
        ⟨fun present => ?_, nofun, fun live => ?_, fun entering => ?_⟩
        fun other ne => ?_⟩
      · change .start other ∉ state.rest
        simp only [List.mem_append, List.mem_singleton, Act.cleared.injEq,
          reduceCtorEq, or_false] at there
        rcases there with (cleared | rfl) | joined
        · exact tracked.past other (Or.inl cleared)
        · rw [script]
          exact List.not_mem_cons_of_ne_of_not_mem nofun
            (tracked.not_start_of_stop script)
        · exact tracked.past other (Or.inr joined)
      · exact List.mem_append_left _ (here.started present)
      · simpa using here.joined live
      · exact (here.entering entering).append (by simp)
      · exact (tracked.follows other).append (by simpa using ne) (by simp)
          (by simp)
  | @join part rest script joining gone =>
      refine tracked.advance script rfl ?_ fun other => ?_
      · intro other there
        simp only [List.mem_singleton, reduceCtorEq, Act.joined.injEq,
          false_or] at there
        subst there
        exact tracked.not_start_of_stop script
      · have follows := tracked.follows other
        refine ⟨fun present => List.mem_append_left _
          (follows.started present), fun flag => ?_, fun live => ?_,
          fun entering => (follows.entering entering).append (by simp)⟩
        · simpa using follows.cleared flag
        · have ne : other ≠ part := by
            rintro rfl
            have dead : ¬ (state.parts other).point.Live := by
              rcases gone with point | point
              · rw [point]
                exact id
              · rw [point]
                exact id
            exact dead live
          simpa [ne] using follows.joined live
  | @enters part top flag =>
      have here := tracked.follows part
      have uncleared := here.cleared flag
      refine tracked.setPart (by simp) (by simp) (by simp) ?_
      rw [List.append_nil]
      exact ⟨fun _ => here.started (top ▸ nofun), fun _ => uncleared,
        fun _ => here.joined (top ▸ trivial),
        fun _ => noneSince_of_not_cleared uncleared⟩
  | @begins part entering =>
      exact tracked.setPart (by simp) (by simp)
        (fun other ne => by simpa using ne)
        ((tracked.follows part).turned (entering ▸ trivial) rfl nofun
          (by simp) (by simp))
  | @leaves part top flag =>
      have here := tracked.follows part
      refine tracked.setPart (by simp) (by simp) (by simp) ?_
      rw [List.append_nil]
      exact ⟨fun _ => here.started (top ▸ nofun), nofun,
        fun live => live.elim, nofun⟩
  | @ends part body =>
      exact tracked.setPart (by simp) (by simp) (by simp)
        ((tracked.follows part).turned (body ▸ trivial) rfl nofun
          (by simp) (by simp))

/-- What a thread does by itself is allowed after what has been done. -/
theorem Turn.allowed (turn : Turn state next acts)
    (tracked : Tracked seen state) : ∀ act ∈ acts, Allowed seen act := by
  cases turn with
  | still => exact fun act member => absurd member List.not_mem_nil
  | leave script => exact fun act member => absurd member List.not_mem_nil
  | enters top flag => exact fun act member => absurd member List.not_mem_nil
  | leaves top flag => exact fun act member => absurd member List.not_mem_nil
  | note script => exact List.forall_mem_singleton.mpr trivial
  | start script => exact List.forall_mem_singleton.mpr trivial
  | clear script yet => exact List.forall_mem_singleton.mpr trivial
  | join script joining gone => exact List.forall_mem_singleton.mpr trivial
  | @begins part entering =>
      have here := tracked.follows part
      exact List.forall_mem_singleton.mpr
        ⟨here.started (entering ▸ nofun), here.joined (entering ▸ trivial),
          here.entering entering⟩
  | @ends part body =>
      have here := tracked.follows part
      exact List.forall_mem_singleton.mpr
        ⟨here.started (body ▸ nofun), here.joined (body ▸ trivial)⟩

end Threads

section Turns

/-- The turns that a thread still needs once its flag is cleared. -/
def turnsLeft : PartPoint → ℕ
  | .absent | .behind => 0
  | .top => 1
  | .body => 2
  | .entering => 3

/-- The turns that a script needs: to stop a thread, to clear its flag and to
join it besides the thread's own. -/
def turnsOf : List (Instr Part Note) → ℕ
  | [] => 0
  | .stop _ :: rest => turnsOf rest + 5
  | .note _ :: rest | .start _ :: rest | .wait :: rest => turnsOf rest + 1

theorem turnsOf_lt_cons (instr : Instr Part Note)
    (rest : List (Instr Part Note)) :
    turnsOf rest < turnsOf (instr :: rest) := by
  cases instr <;> simp only [turnsOf] <;> omega

theorem turnsOf_append (first second : List (Instr Part Note)) :
    turnsOf (first ++ second) = turnsOf first + turnsOf second := by
  induction first with
  | nil => exact (Nat.zero_add _).symm
  | cons instr rest ih =>
      cases instr <;> simp only [List.cons_append, turnsOf, ih] <;> omega

theorem turnsOf_map_start (parts : List Part) :
    turnsOf (parts.map (.start · : Part → Instr Part Note)) =
      parts.length := by
  induction parts with
  | nil => rfl
  | cons part rest ih => exact congrArg (· + 1) ih

theorem turnsOf_map_stop (parts : List Part) :
    turnsOf (parts.map (.stop · : Part → Instr Part Note)) =
      5 * parts.length := by
  induction parts with
  | nil => rfl
  | cons part rest ih => exact congrArg (· + 5) ih

end Turns

section Run

variable [DecidableEq Part] {script : List (Instr Part Note)}
  {state next : Supervisor Part Note} {acts before after : List (Act Part Note)}

theorem Turn.eq_nil_of_split (turn : Turn state next acts)
    {act : Act Part Note} (split : acts = before ++ act :: after) :
    before = [] := by
  have short : acts.length ≤ 1 := by
    cases turn <;> simp
  rw [split, List.length_append, List.length_cons] at short
  exact List.length_eq_zero_iff.mp (by omega)

theorem tracked_exec (forward : Forward script)
    (events : List (SupervisorEvent Part)) :
    Tracked (machine.outputs (begin script) events)
      (machine.exec (begin script) events) := by
  induction events using List.reverseRecOn with
  | nil => exact tracked_begin forward
  | append_singleton events event ih =>
      have turned := turn (machine.exec (begin script) events) event
      rw [Machine.exec_append, Machine.outputs_append, Machine.outputs_cons,
        Machine.outputs_nil, List.append_nil]
      exact turned.tracked ih

/-- Whatever is done is allowed after all that was done before. -/
theorem allowed_of_split (forward : Forward script)
    (events : List (SupervisorEvent Part)) {act : Act Part Note}
    (split : machine.outputs (begin script) events = before ++ act :: after) :
    Allowed before act := by
  induction events using List.reverseRecOn generalizing after with
  | nil =>
      rw [Machine.outputs_nil] at split
      exact absurd split.symm (List.append_ne_nil_of_right_ne_nil _
        (List.cons_ne_nil act after))
  | append_singleton events event ih =>
      have turned := turn (machine.exec (begin script) events) event
      rw [Machine.outputs_append, Machine.outputs_cons, Machine.outputs_nil,
        List.append_nil] at split
      rcases List.append_eq_append_iff.mp split with
        ⟨more, rfl, now⟩ | ⟨more, earlier, now⟩
      · have first := turned.eq_nil_of_split now
        subst first
        rw [List.append_nil]
        exact turned.allowed (tracked_exec forward events) act
          (now ▸ List.mem_cons_self)
      · cases more with
        | nil =>
            rw [List.append_nil] at earlier
            rw [List.nil_append] at now
            subst earlier
            exact turned.allowed (tracked_exec forward events) act
              (now ▸ List.mem_cons_self)
        | cons head tail =>
            obtain ⟨rfl, _⟩ := List.cons.inj now
            exact ih earlier

/-- What the script has earlier is done earlier. -/
theorem mem_of_script (events : List (SupervisorEvent Part))
    (split : machine.outputs (begin script) events = before ++ after)
    {first second : List (Instr Part Note)} (divided : script = first ++ second)
    {early late : Act Part Note} (inFirst : early ∈ actsOf first)
    (notInFirst : late ∉ actsOf first) (main : late.ofMain = true)
    (done : late ∈ before) : early ∈ before := by
  have whole := filter_outputs script events
  have acts : actsOf script = actsOf first ++ actsOf second := by
    rw [divided, actsOf_append]
  rw [split, List.filter_append, List.append_assoc, acts] at whole
  have filtered : late ∈ before.filter Act.ofMain :=
    List.mem_filter.mpr ⟨done, main⟩
  rcases List.append_eq_append_iff.mp whole with
    ⟨more, same, _⟩ | ⟨more, same, _⟩
  · exact absurd (same ▸ List.mem_append_left more filtered) notInFirst
  · have member : early ∈ before.filter Act.ofMain :=
      same ▸ List.mem_append_left more inFirst
    exact List.mem_of_mem_filter member

/-! The way to the end, in turns: of the supervisor, and of the thread that it
waits for. -/

def rank (state : Supervisor Part Note) : ℕ :=
  match state.joining, state.rest with
  | true, .stop part :: rest =>
      turnsOf rest + 1 + turnsLeft (state.parts part).point
  | _, rest => turnsOf rest

/-- Whose turn brings the end nearer. -/
def due (state : Supervisor Part Note) : SupervisorEvent Part :=
  match state.joining, state.rest with
  | true, .stop part :: _ =>
      match (state.parts part).point with
      | .absent | .behind => .main false
      | .top | .entering | .body => .part part
  | _, _ => .main false

omit [DecidableEq Part] in
theorem rank_of_yet (yet : state.joining = false) :
    rank state = turnsOf state.rest := by
  rw [rank, yet]

omit [DecidableEq Part] in
theorem rank_of_joining {part : Part} {rest : List (Instr Part Note)}
    (joining : state.joining = true)
    (script : state.rest = .stop part :: rest) :
    rank state =
      turnsOf rest + 1 + turnsLeft (state.parts part).point := by
  rw [rank, joining, script]

omit [DecidableEq Part] in
theorem rank_shorter {instr : Instr Part Note} {rest : List (Instr Part Note)}
    (yet : state.joining = false) (script : state.rest = instr :: rest)
    (nextYet : next.joining = false) (left : next.rest = rest) :
    rank next < rank state := by
  rw [rank_of_yet yet, rank_of_yet nextYet, script, left]
  exact turnsOf_lt_cons instr rest

omit [DecidableEq Part] in
theorem rank_cleared {part : Part} {rest : List (Instr Part Note)}
    (yet : state.joining = false) (script : state.rest = .stop part :: rest)
    (joining : next.joining = true) (same : next.rest = .stop part :: rest) :
    rank next < rank state := by
  have few : turnsLeft (next.parts part).point ≤ 3 := by
    cases (next.parts part).point <;> decide
  rw [rank_of_yet yet, rank_of_joining joining same, script, turnsOf]
  omega

omit [DecidableEq Part] in
theorem rank_joined {part : Part} {rest : List (Instr Part Note)}
    (joining : state.joining = true) (script : state.rest = .stop part :: rest)
    (yet : next.joining = false) (left : next.rest = rest) :
    rank next < rank state := by
  rw [rank_of_joining joining script, rank_of_yet yet, left]
  omega

theorem rank_setPart_lt {part : Part} {rest : List (Instr Part Note)}
    (joining : state.joining = true) (script : state.rest = .stop part :: rest)
    {there : PartState}
    (nearer : turnsLeft there.point < turnsLeft (state.parts part).point) :
    rank (state.setPart part there) < rank state := by
  have joining' : (state.setPart part there).joining = true := joining
  have script' : (state.setPart part there).rest = .stop part :: rest := script
  rw [rank_of_joining joining script, rank_of_joining joining' script',
    parts_setPart_self]
  exact Nat.add_lt_add_left nearer _

/-- One thread's turn, seen by a supervisor that waits for another or for this
one. -/
theorem progress_setPart (steady : Steady state) {part : Part}
    {there : PartState}
    (nearer : (state.parts part).flag = false →
      turnsLeft there.point < turnsLeft (state.parts part).point) :
    rank (state.setPart part there) < rank state ∨
      rank (state.setPart part there) = rank state ∧
        due (state.setPart part there) = due state := by
  cases joining : state.joining with
  | false =>
      have yet : (state.setPart part there).joining = false := joining
      refine Or.inr ⟨?_, ?_⟩
      · rw [rank_of_yet joining, rank_of_yet yet]
        rfl
      · rw [due, due, yet, joining]
  | true =>
      obtain ⟨stopped, rest, script, flag⟩ := steady joining
      have joining' : (state.setPart part there).joining = true := joining
      have script' : (state.setPart part there).rest = .stop stopped :: rest :=
        script
      by_cases same : stopped = part
      · subst same
        exact Or.inl (rank_setPart_lt joining script (nearer flag))
      · have kept := parts_setPart_of_ne state same there
        refine Or.inr ⟨?_, ?_⟩
        · rw [rank_of_joining joining script,
            rank_of_joining joining' script', kept]
        · simp only [due, joining, joining', script, script', kept]

theorem Turn.progress (turn : Turn state next acts) (steady : Steady state) :
    rank next < rank state ∨ rank next = rank state ∧ due next = due state := by
  cases turn with
  | still => exact Or.inr ⟨rfl, rfl⟩
  | note script =>
      have yet := steady.not_joining script nofun
      exact Or.inl (rank_shorter yet script yet rfl)
  | @start part rest script =>
      have yet := steady.not_joining script nofun
      have nextYet := (joining_startPart state part).trans yet
      exact Or.inl (rank_shorter yet script nextYet rfl)
  | leave script =>
      have yet := steady.not_joining script nofun
      exact Or.inl (rank_shorter yet script yet rfl)
  | clear script yet => exact Or.inl (rank_cleared yet script rfl script)
  | join script joining gone =>
      exact Or.inl (rank_joined joining script rfl rfl)
  | @enters part top flag =>
      exact progress_setPart steady fun cleared => by
        rw [flag] at cleared
        cases cleared
  | @begins part entering =>
      exact progress_setPart steady fun _ => by
        rw [entering]
        exact Nat.lt_succ_self 2
  | @leaves part top flag =>
      exact progress_setPart steady fun _ => by
        rw [top]
        decide
  | @ends part body =>
      exact progress_setPart steady fun _ => by
        rw [body]
        exact Nat.one_lt_two

/-- The turn that is due brings the end nearer. -/
theorem rank_due_lt (steady : Steady state) (unfinished : state.rest ≠ []) :
    rank (machine.step state (due state)).1 < rank state := by
  cases joining : state.joining with
  | false =>
      have turns : due state = .main false := by
        rw [due, joining]
      obtain ⟨instr, rest, script⟩ := List.exists_cons_of_ne_nil unfinished
      rw [turns]
      change rank (state.mainTurn false).1 < _
      cases instr with
      | note note =>
          exact rank_shorter joining script
            (by simpa [mainTurn, script] using joining)
            (by simp [mainTurn, script])
      | start part =>
          exact rank_shorter joining script
            (by simpa [mainTurn, script] using joining)
            (by simp [mainTurn, script])
      | wait =>
          exact rank_shorter joining script
            (by simpa [mainTurn, script] using joining)
            (by simp [mainTurn, script])
      | stop part =>
          exact rank_cleared joining script
            (by simp [mainTurn, script, joining])
            (by simp [mainTurn, script, joining, setPart])
  | true =>
      obtain ⟨part, rest, script, flag⟩ := steady joining
      cases point : (state.parts part).point with
      | absent =>
          have turns : due state = .main false := by
            simp [due, joining, script, point]
          rw [turns]
          exact rank_joined joining script
            (by simp [machine, mainTurn, joining, script, point])
            (by simp [machine, mainTurn, joining, script, point])
      | behind =>
          have turns : due state = .main false := by
            simp [due, joining, script, point]
          rw [turns]
          exact rank_joined joining script
            (by simp [machine, mainTurn, joining, script, point])
            (by simp [machine, mainTurn, joining, script, point])
      | top =>
          have turns : due state = .part part := by
            simp [due, joining, script, point]
          have left : (machine.step state (.part part)).1 = state.setPart part
              { state.parts part with point := .behind } := by
            simp [machine, partTurn, point, flag]
          rw [turns, left]
          refine rank_setPart_lt joining script ?_
          rw [point]
          exact Nat.zero_lt_one
      | entering =>
          have turns : due state = .part part := by
            simp [due, joining, script, point]
          have began : (machine.step state (.part part)).1 =
              state.setPart part { state.parts part with point := .body } := by
            simp [machine, partTurn, point]
          rw [turns, began]
          refine rank_setPart_lt joining script ?_
          rw [point]
          exact Nat.lt_succ_self 2
      | body =>
          have turns : due state = .part part := by
            simp [due, joining, script, point]
          have ended : (machine.step state (.part part)).1 =
              state.setPart part { state.parts part with point := .top } := by
            simp [machine, partTurn, point]
          rw [turns, ended]
          refine rank_setPart_lt joining script ?_
          rw [point]
          exact Nat.one_lt_two

theorem rank_exec_le (steady : Steady state)
    (events : List (SupervisorEvent Part)) :
    Steady (machine.exec state events) ∧
      rank (machine.exec state events) ≤ rank state := by
  induction events generalizing state with
  | nil => exact ⟨steady, Nat.le_refl _⟩
  | cons event rest ih =>
      have turned := turn state event
      obtain ⟨kept, later⟩ := ih (turned.steady steady)
      refine ⟨kept, Nat.le_trans later ?_⟩
      rcases turned.progress steady with nearer | ⟨same, _⟩
      · exact Nat.le_of_lt nearer
      · exact Nat.le_of_eq same

omit [DecidableEq Part] in
theorem rest_ne_nil (unfinished : 0 < rank state) : state.rest ≠ [] := by
  intro finished
  rw [rank, finished] at unfinished
  cases joining : state.joining <;> simp [turnsOf] at unfinished

omit [DecidableEq Part] in
theorem Steady.rest_eq_nil (steady : Steady state) (finished : rank state = 0) :
    state.rest = [] := by
  cases joining : state.joining with
  | false =>
      rw [rank_of_yet joining] at finished
      cases script : state.rest with
      | nil => rfl
      | cons instr rest =>
          have fewer := turnsOf_lt_cons instr rest
          rw [script] at finished
          omega
  | true =>
      obtain ⟨part, rest, script, flag⟩ := steady joining
      rw [rank_of_joining joining script] at finished
      omega

theorem rank_exec_lt (steady : Steady state) (unfinished : 0 < rank state)
    {events : List (SupervisorEvent Part)} (member : due state ∈ events) :
    rank (machine.exec state events) < rank state := by
  induction events generalizing state with
  | nil => exact absurd member List.not_mem_nil
  | cons event rest ih =>
      have turned := turn state event
      have later := (rank_exec_le (turned.steady steady) rest).2
      by_cases taken : due state = event
      · subst taken
        exact Nat.lt_of_le_of_lt later
          (rank_due_lt steady (rest_ne_nil unfinished))
      · have member := (List.mem_cons.mp member).resolve_left taken
        rcases turned.progress steady with nearer | ⟨same, duty⟩
        · exact Nat.lt_of_le_of_lt later nearer
        · rw [← same]
          exact ih (turned.steady steady) (same ▸ unfinished) (duty ▸ member)

/-- Each thread gets its turn, and the supervisor does not have to wait. -/
def Fair (round : List (SupervisorEvent Part)) : Prop :=
  .main false ∈ round ∧ ∀ part, .part part ∈ round

omit [DecidableEq Part] in
theorem due_mem {round : List (SupervisorEvent Part)} (fair : Fair round) :
    due state ∈ round := by
  unfold due
  split
  · split
    · exact fair.1
    · exact fair.1
    · exact fair.2 _
    · exact fair.2 _
    · exact fair.2 _
  · exact fair.1

/-- So many fair rounds lead to the end of the script. -/
theorem rest_exec_flatten (steady : Steady state)
    {rounds : List (List (SupervisorEvent Part))}
    (fair : ∀ round ∈ rounds, Fair round)
    (enough : rank state ≤ rounds.length) :
    (machine.exec state rounds.flatten).rest = [] := by
  induction rounds generalizing state with
  | nil => exact steady.rest_eq_nil (Nat.le_zero.mp enough)
  | cons round rest ih =>
      obtain ⟨here, later⟩ := List.forall_mem_cons.mp fair
      obtain ⟨kept, further⟩ := rank_exec_le steady round
      rw [List.flatten_cons, Machine.exec_append]
      refine ih kept later ?_
      rw [List.length_cons] at enough
      rcases Nat.eq_zero_or_pos (rank state) with zero | unfinished
      · omega
      · have nearer := rank_exec_lt steady unfinished (due_mem here)
        omega

/-- At the end of a script that stops what it starts, nothing is done any
more. -/
theorem outputs_at_end (forward : Forward script)
    (stops : ∀ part, .start part ∈ script → .stop part ∈ script)
    {events : List (SupervisorEvent Part)}
    (ended : (machine.exec (begin script) events).rest = [])
    (more : List (SupervisorEvent Part)) :
    machine.outputs (begin script) (events ++ more) =
      machine.outputs (begin script) events := by
  have whole := filter_outputs script events
  have nothing : (machine.exec (begin script) events).pending = [] := by
    simp [Supervisor.pending, ended, actsOf]
  rw [nothing, List.append_nil] at whole
  rw [Machine.outputs_append, List.append_right_eq_self]
  have all := filter_outputs script (events ++ more)
  rw [Machine.outputs_append, List.filter_append, whole, List.append_assoc,
    List.append_right_eq_self, List.append_eq_nil_iff] at all
  have split := Machine.outputs_append machine (begin script) events more
  cases later : machine.outputs (machine.exec (begin script) events) more with
  | nil => rfl
  | cons act rest =>
      rw [later] at all split
      have alone : act.ofMain ≠ true :=
        List.filter_eq_nil_iff.mp all.1 act List.mem_cons_self
      have stopped : ∀ part, .started part ∈
          machine.outputs (begin script) events →
          .joined part ∈ machine.outputs (begin script) events := by
        intro part started
        have listed : .started part ∈ actsOf script :=
          whole ▸ List.mem_filter.mpr ⟨started, rfl⟩
        have stop := stops part (started_mem_actsOf.mp listed)
        have joined := joined_mem_actsOf.mpr stop
        rw [← whole] at joined
        exact List.mem_of_mem_filter joined
      have allowed := allowed_of_split forward (events ++ more) split
      cases act with
      | noted note => exact absurd rfl alone
      | started part => exact absurd rfl alone
      | cleared part => exact absurd rfl alone
      | joined part => exact absurd rfl alone
      | began part => exact absurd (stopped part allowed.1) allowed.2.1
      | ended part => exact absurd (stopped part allowed.1) allowed.2

end Run

end RoboBand.Data.Supervisor
