import RoboBand.Data.Machine
import RoboBand.Data.Occurrence

namespace RoboBand.Data

variable {α : Type*}

/-! Cutting a stream into frames of one fixed length that all begin with the
same head.  The framer keeps a window of the stream, looks for the head in the
whole window after each chunk, and forgets everything before the head. -/

structure ChunkFits (capacity : Nat) (window chunk : List α) : Prop where
  nonempty : chunk ≠ []
  room : window.length + chunk.length ≤ capacity

def Framed (head : List α) (capacity : Nat) (frames : List (List α)) : Prop :=
  ∀ frame ∈ frames, frame.length = capacity ∧ head <+: frame

theorem eq_nil_of_flatten_short {head : List α} {capacity : Nat}
    {frames : List (List α)} (framed : Framed head capacity frames)
    (short : frames.flatten.length < capacity) : frames = [] := by
  cases frames with
  | nil => rfl
  | cons frame rest =>
      have full := (framed frame (by simp)).1
      simp only [List.flatten_cons, List.length_append] at short
      omega

/-- The stream positions at which the head is looked for while it has not been
seen: the first chunk boundary with a head's length of fresh elements, and so
on from there.  `held` counts the elements kept since the last such place. -/
def searches (headLength : Nat) : Nat → Nat → List (List α) → List Nat
  | _, _, [] => []
  | position, held, chunk :: rest =>
      if held + chunk.length < headLength then
        searches headLength (position + chunk.length) (held + chunk.length) rest
      else
        (position + chunk.length) ::
          searches headLength (position + chunk.length) 0 rest

theorem le_of_mem_searches {headLength position held cut : Nat}
    {chunks : List (List α)}
    (member : cut ∈ searches headLength position held chunks) :
    position ≤ cut := by
  induction chunks generalizing position held with
  | nil => simp [searches] at member
  | cons chunk rest ih =>
      simp only [searches] at member
      split at member
      · exact (Nat.le_add_right _ _).trans (ih member)
      · rcases List.mem_cons.mp member with rfl | later
        · exact Nat.le_add_right _ _
        · exact (Nat.le_add_right _ _).trans (ih later)

theorem searches_shift (headLength position held offset : Nat)
    (chunks : List (List α)) :
    searches headLength (offset + position) held chunks =
      (searches headLength position held chunks).map (offset + ·) := by
  induction chunks generalizing position held with
  | nil => rfl
  | cons chunk rest ih =>
      simp only [searches, Nat.add_assoc]
      split
      · exact ih _ _
      · rw [List.map_cons, ih]

/-- No search falls strictly inside the head that stands behind the noise. -/
def HeadUncut (headLength noise held : Nat) (chunks : List (List α)) : Prop :=
  ∀ cut ∈ searches headLength held held chunks,
    cut ≤ noise ∨ noise + headLength ≤ cut

instance (headLength noise held : Nat) (chunks : List (List α)) :
    Decidable (HeadUncut headLength noise held chunks) :=
  inferInstanceAs (Decidable (∀ cut ∈ searches _ _ _ _, _))

theorem headUncut_cons_of_late {headLength noise held : Nat}
    {chunk : List α} {rest : List (List α)}
    (late : noise + headLength ≤ held + chunk.length) :
    HeadUncut headLength noise held (chunk :: rest) := by
  have long : headLength ≤ held + chunk.length := by omega
  simp only [HeadUncut, searches, Nat.not_lt.mpr long, if_false]
  intro cut member
  rcases List.mem_cons.mp member with rfl | later
  · exact Or.inr late
  · exact Or.inr (late.trans (le_of_mem_searches later))

theorem headUncut_cons_of_short {headLength noise held : Nat}
    {chunk : List α} {rest : List (List α)}
    (short : held + chunk.length < headLength) :
    HeadUncut headLength noise held (chunk :: rest) ↔
      HeadUncut headLength noise (held + chunk.length) rest := by
  simp [HeadUncut, searches, short]

/-- A search at `offset` that falls into the noise starts the count afresh. -/
theorem headUncut_cons_of_noise {headLength noise held offset : Nat}
    {chunk : List α} {rest : List (List α)}
    (searched : held + chunk.length = offset) (long : headLength ≤ offset)
    (before : offset ≤ noise) :
    HeadUncut headLength noise held (chunk :: rest) ↔
      HeadUncut headLength (noise - offset) 0 rest := by
  have shifted := searches_shift headLength 0 0 offset rest
  rw [Nat.add_zero] at shifted
  simp only [HeadUncut, searches, searched, Nat.not_lt.mpr long, if_false,
    shifted, List.forall_mem_cons, List.forall_mem_map]
  constructor
  · rintro ⟨_, later⟩ cut member
    have := later cut member
    omega
  · intro later
    refine ⟨Or.inl before, fun cut member => ?_⟩
    have := later cut member
    omega

def settle (capacity : Nat) (window : List α) : List α × List (List α) :=
  if window.length < capacity then (window, []) else ([], [window])

section Framer

variable [DecidableEq α]

def resync (head buffered : List α) : List α :=
  if buffered.length < head.length then
    buffered
  else
    match find? head buffered with
    | none => []
    | some position => buffered.drop position

def framer (head : List α) (capacity : Nat) :
    Machine (List α) (List α) (List α) where
  step window chunk := settle capacity (resync head (window ++ chunk))

@[simp] theorem framer_step (head : List α) (capacity : Nat)
    (window chunk : List α) :
    (framer head capacity).step window chunk =
      settle capacity (resync head (window ++ chunk)) := rfl

theorem resync_of_short {head buffered : List α}
    (short : buffered.length < head.length) :
    resync head buffered = buffered := by
  simp [resync, short]

theorem resync_of_first {head buffered : List α} {position : Nat}
    (long : head.length ≤ buffered.length)
    (first : FirstOccurrence head buffered position) :
    resync head buffered = buffered.drop position := by
  simp [resync, Nat.not_lt.mpr long, find?_eq_some_iff.mpr first]

theorem resync_of_absent {head buffered : List α}
    (long : head.length ≤ buffered.length)
    (absent : find? head buffered = none) :
    resync head buffered = [] := by
  simp [resync, Nat.not_lt.mpr long, absent]

theorem length_resync_le (head buffered : List α) :
    (resync head buffered).length ≤ buffered.length := by
  unfold resync
  split
  · exact le_rfl
  · split
    · exact Nat.zero_le _
    · rw [List.length_drop]
      exact Nat.sub_le _ _

theorem resync_suffix (head buffered : List α) :
    resync head buffered <:+ buffered := by
  unfold resync
  split
  · exact List.suffix_refl buffered
  · split
    · exact List.nil_suffix
    · exact List.drop_suffix _ _

theorem prefix_resync {head buffered : List α}
    (long : head.length ≤ (resync head buffered).length) :
    head <+: resync head buffered := by
  have enough := long.trans (length_resync_le head buffered)
  cases found : find? head buffered with
  | none =>
      rw [resync_of_absent enough found] at long ⊢
      rw [List.length_eq_zero_iff.mp (Nat.eq_zero_of_le_zero long)]
  | some position =>
      have first := find?_eq_some_iff.mp found
      rw [resync_of_first enough first]
      exact first.occurs

theorem resync_of_prefix {head buffered frame : List α}
    (starts : head <+: frame) (aligned : buffered <+: frame) :
    resync head buffered = buffered := by
  rcases Nat.lt_or_ge buffered.length head.length with short | long
  · exact resync_of_short short
  · have here := List.prefix_of_prefix_length_le starts aligned long
    rw [resync_of_first long (.atStart here), List.drop_zero]

theorem framer_step_of_short {head : List α} {capacity : Nat}
    {window chunk : List α} (headFits : head.length ≤ capacity)
    (short : (window ++ chunk).length < head.length) :
    (framer head capacity).step window chunk = (window ++ chunk, []) := by
  rw [framer_step, resync_of_short short, settle, if_pos (by omega)]

theorem framer_step_of_absent {head : List α} {capacity : Nat}
    {window chunk : List α} (positive : 0 < capacity)
    (long : head.length ≤ (window ++ chunk).length)
    (absent : find? head (window ++ chunk) = none) :
    (framer head capacity).step window chunk = ([], []) := by
  rw [framer_step, resync_of_absent long absent, settle, if_pos (by simpa)]

/-- Too few elements left in the stream to fill a window. -/
theorem framer_outputs_of_scarce {head : List α} {capacity : Nat}
    {window : List α} {chunks : List (List α)}
    (scarce : window.length + chunks.flatten.length < capacity) :
    (framer head capacity).outputs window chunks = [] := by
  induction chunks generalizing window with
  | nil => rfl
  | cons chunk rest ih =>
      have bound := length_resync_le head (window ++ chunk)
      simp only [List.flatten_cons, List.length_append] at scarce bound
      have partly : (resync head (window ++ chunk)).length < capacity := by
        omega
      simp only [Machine.outputs_cons, framer_step, settle, partly, if_true,
        List.nil_append]
      exact ih (by omega)

section Clean

variable {head : List α} {capacity : Nat}

/-- What is left to do from an aligned window, once the framer is known to cut
the stream right from every window that is not yet full. -/
private theorem settle_outputs (positive : 0 < capacity)
    {next : List α} {chunks frames : List (List α)}
    (framed : Framed head capacity frames)
    (room : next.length ≤ capacity)
    (stream : next ++ chunks.flatten = frames.flatten)
    (recurse : ∀ window frames, Framed head capacity frames →
      window.length < capacity →
      window ++ chunks.flatten = frames.flatten →
      window = (settle capacity next).1 →
      (framer head capacity).outputs window chunks = frames) :
    (settle capacity next).2 ++
      (framer head capacity).outputs (settle capacity next).1 chunks =
        frames := by
  rcases Nat.lt_or_ge next.length capacity with partly | full
  · have settled : settle capacity next = (next, []) := by
      simp [settle, partly]
    rw [settled] at recurse ⊢
    exact recurse next frames framed partly stream rfl
  · have settled : settle capacity next = ([], [next]) := by
      simp [settle, Nat.not_lt.mpr full]
    rw [settled] at recurse ⊢
    cases frames with
    | nil =>
        have none := congrArg List.length stream
        simp only [List.length_append, List.flatten_nil, List.length_nil]
          at none
        omega
    | cons frame rest =>
        have frameLength := (framed frame (by simp)).1
        obtain ⟨rfl, tail⟩ : next = frame ∧ chunks.flatten = rest.flatten :=
          List.append_inj stream (by omega)
        have later := recurse [] rest
          (fun other member => framed other (by simp [member]))
          (by simpa using positive) (by simpa using tail) rfl
        simpa using later

theorem framer_outputs_clean (positive : 0 < capacity)
    {window : List α} {chunks frames : List (List α)}
    (framed : Framed head capacity frames)
    (room : window.length < capacity)
    (stream : window ++ chunks.flatten = frames.flatten)
    (fits : (framer head capacity).Admits (ChunkFits capacity) window chunks) :
    (framer head capacity).outputs window chunks = frames := by
  induction chunks generalizing window frames with
  | nil =>
      simp only [List.flatten_nil, List.append_nil] at stream
      exact (eq_nil_of_flatten_short framed (stream ▸ room)).symm
  | cons chunk rest ih =>
      obtain ⟨chunkFits, restFits⟩ := fits
      have fitting := chunkFits.room
      rw [List.flatten_cons, ← List.append_assoc] at stream
      have aligned : resync head (window ++ chunk) = window ++ chunk := by
        cases frames with
        | nil =>
            have empty := List.append_eq_nil_iff.mp stream
            exact absurd (List.append_eq_nil_iff.mp empty.1).2
              chunkFits.nonempty
        | cons frame others =>
            obtain ⟨frameLength, starts⟩ := framed frame (by simp)
            refine resync_of_prefix starts ?_
            refine List.prefix_of_prefix_length_le
              (List.prefix_append (window ++ chunk) rest.flatten)
              (stream ▸ List.prefix_append frame others.flatten) ?_
            rw [List.length_append]
            omega
      rw [framer_step, aligned] at restFits
      rw [Machine.outputs_cons, framer_step, aligned]
      refine settle_outputs positive framed
        (by rw [List.length_append]; omega) stream ?_
      rintro settled others othersFramed settledRoom settledStream rfl
      exact ih othersFramed settledRoom settledStream restFits

/-- From the first search that sees the head on, the framer is aligned. -/
private theorem framer_outputs_of_found
    {window chunk noise frame : List α} {rest : List (List α)}
    (nonempty : head ≠ []) (frameLength : frame.length = capacity)
    (starts : head <+: frame)
    (stream : window ++ (chunk :: rest).flatten = noise ++ frame)
    (first : FirstOccurrence head (noise ++ frame) noise.length)
    (found : noise.length + head.length ≤ (window ++ chunk).length)
    (fits : (framer head capacity).Admits (ChunkFits capacity)
      window (chunk :: rest)) :
    (framer head capacity).outputs window (chunk :: rest) = [frame] := by
  have positive : 0 < capacity :=
    frameLength ▸ (List.length_pos_iff.mpr nonempty).trans_le starts.length_le
  obtain ⟨chunkFits, restFits⟩ := fits
  have fitting := chunkFits.room
  rw [List.flatten_cons, ← List.append_assoc] at stream
  have aligned : resync head (window ++ chunk) =
      (window ++ chunk).drop noise.length :=
    resync_of_first (by omega) ((stream ▸ first).of_append found)
  have remainder :
      (window ++ chunk).drop noise.length ++ rest.flatten = frame :=
    (eq_drop_append stream.symm (by omega)).symm
  rw [framer_step, aligned] at restFits
  rw [Machine.outputs_cons, framer_step, aligned]
  refine settle_outputs positive ?_ ?_ (by simpa using remainder) ?_
  · simpa [Framed] using And.intro frameLength starts
  · rw [List.length_drop, List.length_append]
    omega
  · rintro settled frames framed room settledStream rfl
    exact framer_outputs_clean positive framed room settledStream restFits

/-- Behind noise the framer hands out the frame exactly when no search falls
strictly inside the frame's head. -/
theorem framer_outputs_noise
    {window noise frame : List α} {chunks : List (List α)}
    (nonempty : head ≠ []) (frameLength : frame.length = capacity)
    (starts : head <+: frame) (short : window.length < head.length)
    (stream : window ++ chunks.flatten = noise ++ frame)
    (first : FirstOccurrence head (noise ++ frame) noise.length)
    (fits : (framer head capacity).Admits (ChunkFits capacity) window chunks) :
    (framer head capacity).outputs window chunks = [frame] ↔
      HeadUncut head.length noise.length window.length chunks := by
  have headFits := starts.length_le
  induction chunks generalizing window noise with
  | nil =>
      have lengths := congrArg List.length stream
      simp only [List.flatten_nil, List.append_nil, List.length_append]
        at lengths
      omega
  | cons chunk rest ih =>
      have total := congrArg List.length stream
      simp only [List.flatten_cons, List.length_append] at total
      have split : (window ++ chunk) ++ rest.flatten = noise ++ frame := by
        rw [← stream, List.flatten_cons, List.append_assoc]
      obtain ⟨chunkFits, restFits⟩ := fits
      rcases Nat.lt_or_ge (window ++ chunk).length head.length with few | enough
      · -- too short to be searched: the chunk joins the window
        have kept :=
          framer_step_of_short (by omega : head.length ≤ capacity) few
        rw [Machine.outputs_cons, kept, List.nil_append,
          headUncut_cons_of_short (by simpa using few), ← List.length_append]
        exact ih few split first (by simpa only [kept] using restFits)
      rcases Nat.lt_or_ge (window ++ chunk).length
          (noise.length + head.length) with cut | found
      · -- searched before the head is complete: everything so far is dropped
        have empty : ([] : List α).length < head.length :=
          List.length_pos_iff.mpr nonempty
        have dropped := framer_step_of_absent (by omega : 0 < capacity) enough
          (find?_eq_none_of_cut nonempty (split ▸ first) cut)
        rw [Machine.outputs_cons, dropped, List.nil_append]
        rw [dropped] at restFits
        rw [List.length_append] at cut enough
        rcases Nat.lt_or_ge noise.length (window.length + chunk.length)
          with inside | before
        · rw [framer_outputs_of_scarce (by rw [List.length_nil]; omega)]
          refine iff_of_false (by simp) fun uncut => ?_
          have := uncut (window.length + chunk.length)
            (by simp [searches, Nat.not_lt.mpr enough])
          omega
        · rw [headUncut_cons_of_noise rfl enough before]
          have tail : rest.flatten =
              noise.drop (window.length + chunk.length) ++ frame := by
            rw [← List.length_append] at before ⊢
            exact eq_drop_append split before
          have later := ih empty tail (first.drop_before before) restFits
          rwa [List.length_drop] at later
      · exact iff_of_true
          (framer_outputs_of_found nonempty frameLength starts stream first
            found ⟨chunkFits, restFits⟩)
          (headUncut_cons_of_late (by simpa using found))

end Clean

end Framer

end RoboBand.Data
