import RoboBand.Io.Serial

namespace RoboBand.Io

open RoboBand.Data

/-! The bytes `Serial::read` holds on to, as a list: what the array, the length
and the in-place moves of the loop amount to. -/

def ReadState.window (state : ReadState) : List Byte :=
  state.data.take state.readLen

namespace Serial

/-- What the loop over the heads leaves of the buffered bytes.  Only the first
head of the map is ever looked for: a buffer shorter than it ends the loop, a
match ends the loop, and a miss empties the buffer. -/
def resyncHeads (heads : List (List Byte × List Byte))
    (buffered : List Byte) : List Byte :=
  match heads with
  | [] => buffered
  | (head, _) :: _ => resync head buffered

def firstHead : List (List Byte × List Byte) → List Byte
  | [] => []
  | (head, _) :: _ => head

theorem resyncHeads_eq (heads : List (List Byte × List Byte))
    (buffered : List Byte) :
    resyncHeads heads buffered = resync (firstHead heads) buffered := by
  cases heads with
  | nil =>
      have kept : resync [] buffered = buffered :=
        resync_of_prefix List.nil_prefix (List.prefix_refl buffered)
      exact kept.symm
  | cons entry rest => rfl

@[simp] theorem store_length {data chunk : List Byte} {offset : Nat}
    (room : offset + chunk.length ≤ data.length) :
    (store data offset chunk).length = data.length := by
  simp only [store, List.length_append, List.length_take, List.length_drop]
  omega

theorem take_store {data chunk : List Byte} {offset : Nat}
    (room : offset + chunk.length ≤ data.length) :
    (store data offset chunk).take (offset + chunk.length) =
      data.take offset ++ chunk := by
  have joined : (data.take offset ++ chunk).length = offset + chunk.length := by
    rw [List.length_append, List.length_take]
    omega
  rw [store, ← joined, List.take_left]

theorem memmove_length {data : List Byte} {pos len : Nat}
    (inside : pos + len ≤ data.length) :
    (memmove data pos len).length = data.length := by
  simp only [memmove, List.length_append, List.length_take, List.length_drop]
  omega

theorem take_memmove {data : List Byte} {pos len : Nat}
    (inside : pos + len ≤ data.length) :
    (memmove data pos len).take len = (data.drop pos).take len := by
  have moved : ((data.drop pos).take len).length = len := by
    rw [List.length_take, List.length_drop]
    omega
  rw [memmove, List.take_append_of_le_length moved.ge,
    List.take_of_length_le moved.le]

theorem searchHeads_zero (rx : List Byte)
    (heads : List (List Byte × List Byte)) (data : List Byte) :
    searchHeads rx heads data 0 = (data, 0) := by
  induction heads with
  | nil => rfl
  | cons entry rest ih =>
      simp only [searchHeads, Nat.zero_sub]
      split
      · rfl
      · rename_i long
        have empty : entry.1 = [] :=
          List.length_eq_zero_iff.mp (Nat.eq_zero_of_not_pos long)
        cases found : find? entry.1 rx with
        | none => exact ih
        | some pos =>
            have zero : pos = 0 := (find?_eq_some_iff.mp found).unique
              (.atStart (empty ▸ List.nil_prefix))
            simp [zero]

structure Holds (bufferSize : Nat) (state : ReadState)
    (window : List Byte) : Prop where
  size : state.data.length = bufferSize
  kept : state.window = window
  length : state.readLen = window.length

theorem Holds.length_le {bufferSize : Nat} {state : ReadState}
    {window : List Byte} (holds : Holds bufferSize state window) :
    window.length ≤ bufferSize := by
  rw [← holds.kept, ReadState.window, List.length_take, holds.size]
  exact Nat.min_le_right _ _

private theorem holds_searchHeads {bufferSize readLen : Nat}
    {heads : List (List Byte × List Byte)} {data : List Byte}
    (size : data.length = bufferSize) (room : readLen ≤ bufferSize)
    (gotData : Bool) :
    let found := searchHeads (data.take readLen) heads data readLen
    Holds bufferSize ⟨found.1, found.2, gotData⟩
      (resyncHeads heads (data.take readLen)) := by
  have rxLength : (data.take readLen).length = readLen := by
    rw [List.length_take]
    omega
  cases heads with
  | nil => exact ⟨size, rfl, rxLength.symm⟩
  | cons entry rest =>
      obtain ⟨head, tail⟩ := entry
      simp only [searchHeads, resyncHeads, resync, rxLength]
      split
      · exact ⟨size, rfl, rxLength.symm⟩
      · cases found : find? head (data.take readLen) with
        | none =>
            simp only [searchHeads_zero]
            exact ⟨size, rfl, rfl⟩
        | some pos =>
            have inside : pos ≤ readLen :=
              rxLength ▸ (find?_eq_some_iff.mp found).position_le
            have dropped : ((data.take readLen).drop pos).length =
                readLen - pos := by
              rw [List.length_drop, rxLength]
            by_cases moved : pos ≠ 0
            · have block : pos + (readLen - pos) ≤ data.length := by omega
              simp only [if_pos moved]
              exact ⟨(memmove_length block).trans size,
                (take_memmove block).trans List.drop_take.symm, dropped.symm⟩
            · have zero : pos = 0 := not_not.mp moved
              subst zero
              exact ⟨size, rfl, dropped.symm⟩

theorem holds_onBytes {serial : Serial} {state : ReadState}
    {window chunk : List Byte}
    (holds : Holds serial.bufferSize state window)
    (room : window.length + chunk.length ≤ serial.bufferSize) :
    Holds serial.bufferSize (serial.onBytes state chunk)
      (resyncHeads serial.headTails.entries (window ++ chunk)) := by
  have fits : state.readLen + chunk.length ≤ state.data.length := by
    rw [holds.length, holds.size]
    exact room
  have rx : (store state.data state.readLen chunk).take
      (state.readLen + chunk.length) = window ++ chunk := by
    rw [take_store fits, ← holds.kept, ReadState.window]
  have readable : state.readLen + chunk.length ≤ serial.bufferSize :=
    fits.trans holds.size.le
  rw [← rx]
  exact holds_searchHeads ((store_length fits).trans holds.size) readable true

theorem holds_start (serial : Serial) :
    Holds serial.bufferSize serial.start [] where
  size := List.length_replicate
  kept := rfl
  length := rfl

theorem reader_step_bytes {serial : Serial} {state : ReadState}
    {window chunk : List Byte}
    (holds : Holds serial.bufferSize state window)
    (room : window.length + chunk.length ≤ serial.bufferSize) :
    let next := resyncHeads serial.headTails.entries (window ++ chunk)
    let settled := settle serial.bufferSize next
    Holds serial.bufferSize (serial.reader.step state (.bytes chunk)).1
        settled.1 ∧
      (serial.reader.step state (.bytes chunk)).2 =
        settled.2.map (⟨serial.bufferSize, ·⟩) := by
  intro next settled
  have nextHolds : Holds serial.bufferSize (serial.onBytes state chunk) next :=
    holds_onBytes holds room
  rcases Nat.lt_or_ge next.length serial.bufferSize with partly | full
  · simp only [reader, readTurn, loopBody, loopTest, nextHolds.length, settled,
      settle, partly, if_true]
    exact ⟨nextHolds, rfl⟩
  · have whole : next.length = serial.bufferSize :=
      le_antisymm nextHolds.length_le full
    have data : (serial.onBytes state chunk).data = next := by
      rw [← nextHolds.kept, ReadState.window, nextHolds.length, whole,
        ← nextHolds.size, List.take_length]
    simp only [reader, readTurn, loopBody, loopTest, nextHolds.length, settled,
      settle, data, whole, lt_self_iff_false, if_false]
    exact ⟨holds_start serial, rfl⟩

theorem reader_step_empty {serial : Serial} {state : ReadState}
    (room : state.readLen < serial.bufferSize) (pollIn : Bool) :
    serial.reader.step state (.empty pollIn) =
      if pollIn then (state, [])
      else (serial.start, [⟨state.readLen, state.data⟩]) := by
  cases pollIn with
  | false => rfl
  | true => simp [reader, readTurn, loopBody, loopTest, room]

theorem settle_fst_length {capacity : Nat} (positive : 0 < capacity)
    (window : List Byte) : (settle capacity window).1.length < capacity := by
  unfold settle
  split
  · assumption
  · exact positive

def Holding (bufferSize : Nat) (state : ReadState) : Prop :=
  ∃ window, Holds bufferSize state window

theorem holding_step {serial : Serial} {state : ReadState}
    {event : PortEvent} (holding : Holding serial.bufferSize state)
    (allowed : serial.PortAllowed state event) :
    Holding serial.bufferSize (serial.reader.step state event).1 := by
  obtain ⟨window, holds⟩ := holding
  have fresh : Holding serial.bufferSize serial.start :=
    ⟨[], holds_start serial⟩
  cases event with
  | bytes chunk =>
      have delivered := allowed.2
      rw [holds.length] at delivered
      have fitting := holds.length_le
      exact ⟨_, (reader_step_bytes holds (by omega)).1⟩
  | empty pollIn =>
      cases pollIn with
      | false => exact fresh
      | true =>
          rcases Nat.lt_or_ge state.readLen serial.bufferSize with room | full
          · rw [reader_step_empty room]
            exact ⟨window, holds⟩
          · simpa [reader, readTurn, loopBody, loopTest, Nat.not_lt.mpr full]
              using fresh
  | failed ret => exact fresh

theorem holding_exec {serial : Serial} {events : List PortEvent}
    (allowed : serial.reader.Admits serial.PortAllowed serial.start events) :
    Holding serial.bufferSize (serial.reader.exec serial.start events) :=
  Machine.exec_invariant_of_admits
    (fun _ _ holding allowed => holding_step holding allowed)
    ⟨[], holds_start serial⟩ allowed

end Serial

end RoboBand.Io
