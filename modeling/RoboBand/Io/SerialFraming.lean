import RoboBand.Io.SerialWindow
import Mathlib.Order.Bounds.Basic

namespace RoboBand.Io

open RoboBand.Data

namespace PortEvent

def undisturbed : PortEvent → Bool
  | .bytes _ => true
  | .empty pollIn => pollIn
  | .failed _ => false

def chunk? : PortEvent → Option (List Byte)
  | .bytes chunk => some chunk
  | .empty _ => none
  | .failed _ => none

end PortEvent

def chunks (events : List PortEvent) : List (List Byte) :=
  events.filterMap PortEvent.chunk?

namespace Serial

section FirstHead

variable {serial : Serial} {head : List Byte}

/-- Without a timeout, the calls of `Serial::read` return what the framer of
their first head hands out, and ask the port for what the framer has room
for. -/
theorem reader_refines_framer
    (first : firstHead serial.headTails.entries = head)
    {state : ReadState} {window : List Byte} {events : List PortEvent}
    (positive : 0 < serial.bufferSize)
    (holds : Holds serial.bufferSize state window)
    (room : window.length < serial.bufferSize)
    (undisturbed : ∀ event ∈ events, event.undisturbed = true)
    (allowed : serial.reader.Admits serial.PortAllowed state events) :
    serial.reader.outputs state events =
        ((framer head serial.bufferSize).outputs window (chunks events)).map
          (⟨serial.bufferSize, ·⟩) ∧
      (framer head serial.bufferSize).Admits (ChunkFits serial.bufferSize)
        window (chunks events) := by
  induction events generalizing state window with
  | nil => exact ⟨rfl, trivial⟩
  | cons event rest ih =>
      have restUndisturbed : ∀ event ∈ rest, event.undisturbed = true :=
        fun other member => undisturbed other (List.mem_cons_of_mem _ member)
      have here := undisturbed event List.mem_cons_self
      obtain ⟨eventAllowed, restAllowed⟩ := allowed
      cases event with
      | failed ret => cases here
      | empty pollIn =>
          have ready : pollIn = true := here
          subst ready
          have stays : serial.reader.step state (.empty true) = (state, []) :=
            reader_step_empty (holds.length ▸ room) true
          rw [stays] at restAllowed
          rw [Machine.outputs_cons, stays]
          exact ih holds room restUndisturbed restAllowed
      | bytes chunk =>
          obtain ⟨nonempty, delivered⟩ := eventAllowed
          rw [holds.length] at delivered
          have fitting : window.length + chunk.length ≤ serial.bufferSize := by
            omega
          have stepped := reader_step_bytes holds fitting
          simp only [resyncHeads_eq, first] at stepped
          obtain ⟨nextHolds, answered⟩ := stepped
          have later := ih nextHolds (settle_fst_length positive _)
            restUndisturbed restAllowed
          have delivery :
              chunks (.bytes chunk :: rest) = chunk :: chunks rest := rfl
          rw [delivery, Machine.outputs_cons, Machine.outputs_cons, answered,
            framer_step, List.map_append, later.1]
          exact ⟨rfl, ⟨nonempty, by omega⟩, later.2⟩

end FirstHead

/-- A port that delivers `stream` to a reader with one registered head, cut up
in any way but without a timeout. -/
structure Line (serial : Serial) (head stream : List Byte)
    (events : List PortEvent) : Prop where
  single : ∃ tail, serial.headTails.entries = [(head, tail)]
  nonempty : head ≠ []
  headFits : head.length ≤ serial.bufferSize
  delivered : (chunks events).flatten = stream
  undisturbed : ∀ event ∈ events, event.undisturbed = true
  allowed : serial.reader.Admits serial.PortAllowed serial.start events

section Line

variable {serial : Serial} {head stream : List Byte} {events : List PortEvent}

theorem Line.positive (line : Line serial head stream events) :
    0 < serial.bufferSize :=
  (List.length_pos_iff.mpr line.nonempty).trans_le line.headFits

theorem Line.refines (line : Line serial head stream events) :
    serial.reader.outputs serial.start events =
        ((framer head serial.bufferSize).outputs [] (chunks events)).map
          (⟨serial.bufferSize, ·⟩) ∧
      (framer head serial.bufferSize).Admits (ChunkFits serial.bufferSize)
        [] (chunks events) := by
  obtain ⟨tail, single⟩ := line.single
  have first : firstHead serial.headTails.entries = head := by
    rw [single]
    rfl
  exact reader_refines_framer first line.positive (holds_start serial)
    line.positive line.undisturbed line.allowed

end Line

theorem read_delivers_frames {serial : Serial} {head : List Byte}
    {frames : List (List Byte)} {events : List PortEvent}
    (framed : Framed head serial.bufferSize frames)
    (line : Line serial head frames.flatten events) :
    serial.reader.outputs serial.start events =
      frames.map (⟨serial.bufferSize, ·⟩) := by
  obtain ⟨refines, fits⟩ := line.refines
  have empty : ([] : List Byte).length < serial.bufferSize := line.positive
  rw [refines, framer_outputs_clean line.positive framed empty line.delivered
    fits]

theorem read_delivers_two_frames :
    let serial := (Serial.new 4).addRxHeadTail [0xfd, 0xee] []
    serial.reader.outputs serial.start
      [.bytes [0xfd], .empty true, .bytes [0xee, 0xfd, 0xee],
        .bytes [0xfd, 0xee, 0x01, 0x02]] =
      [⟨4, [0xfd, 0xee, 0xfd, 0xee]⟩, ⟨4, [0xfd, 0xee, 0x01, 0x02]⟩] := by
  intro serial
  have framed : Framed [(0xfd : Byte), 0xee] serial.bufferSize
      [[0xfd, 0xee, 0xfd, 0xee], [0xfd, 0xee, 0x01, 0x02]] := by
    intro frame member
    simp only [List.mem_cons, List.not_mem_nil, or_false] at member
    rcases member with rfl | rfl <;> decide
  have line : Line serial [0xfd, 0xee]
      [[0xfd, 0xee, 0xfd, 0xee], [0xfd, 0xee, 0x01, 0x02]].flatten
      [.bytes [0xfd], .empty true, .bytes [0xee, 0xfd, 0xee],
        .bytes [0xfd, 0xee, 0x01, 0x02]] := {
    single := ⟨[], rfl⟩
    nonempty := by decide
    headFits := by decide
    delivered := by decide
    undisturbed := by decide
    allowed := by decide }
  exact read_delivers_frames framed line

theorem read_resynchronises_iff {serial : Serial}
    {head noise frame : List Byte} {events : List PortEvent}
    (frameLength : frame.length = serial.bufferSize)
    (starts : head <+: frame)
    (first : FirstOccurrence head (noise ++ frame) noise.length)
    (line : Line serial head (noise ++ frame) events) :
    serial.reader.outputs serial.start events = [⟨serial.bufferSize, frame⟩] ↔
      HeadUncut head.length noise.length 0 (chunks events) := by
  obtain ⟨refines, fits⟩ := line.refines
  have short : ([] : List Byte).length < head.length :=
    List.length_pos_iff.mpr line.nonempty
  have handed := framer_outputs_noise line.nonempty frameLength starts short
    line.delivered first fits
  rw [refines]
  refine Iff.trans ?_ handed
  constructor
  · intro received
    rw [List.map_eq_singleton_iff] at received
    obtain ⟨other, handed, same⟩ := received
    rw [handed, (Received.mk.inj same).2]
  · intro handed
    rw [handed, List.map_singleton]

theorem read_loses_split_head :
    let serial := (Serial.new 16).addRxHeadTail [0xfd, 0xee] []
    let frame := [0xfd, 0xee] ++ List.replicate 14 0
    let events := [.bytes [0x00, 0xfd], .bytes (0xee :: List.replicate 14 0)]
    Line serial [0xfd, 0xee] ([0x00] ++ frame) events ∧
      FirstOccurrence [0xfd, 0xee] ([0x00] ++ frame) 1 ∧
      serial.reader.outputs serial.start events ≠ [⟨16, frame⟩] := by
  intro serial frame events
  refine ⟨?_, find?_eq_some_iff.mp (by decide), by decide⟩
  exact {
    single := ⟨[], rfl⟩
    nonempty := by decide
    headFits := by decide
    delivered := by decide
    undisturbed := by decide
    allowed := by decide }

theorem read_resynchronises_whole_head :
    let serial := (Serial.new 16).addRxHeadTail [0xfd, 0xee] []
    let frame := [0xfd, 0xee] ++ List.replicate 14 0
    serial.reader.outputs serial.start
      [.bytes [0x00, 0x00], .bytes [0xfd],
        .bytes (0xee :: List.replicate 14 0)] = [⟨16, frame⟩] := by
  intro serial frame
  have line : Line serial [0xfd, 0xee] ([0x00, 0x00] ++ frame)
      [.bytes [0x00, 0x00], .bytes [0xfd],
        .bytes (0xee :: List.replicate 14 0)] := {
    single := ⟨[], rfl⟩
    nonempty := by decide
    headFits := by decide
    delivered := by decide
    undisturbed := by decide
    allowed := by decide }
  have first : FirstOccurrence [0xfd, 0xee] ([0x00, 0x00] ++ frame) 2 :=
    find?_eq_some_iff.mp (by decide)
  exact (read_resynchronises_iff rfl (by decide) first line).mpr (by decide)

section Heads

/-- The first head of the map stands at `position`, or the buffer is still
shorter than it and nothing is to be dropped. -/
def FirstHeadAt (heads : List (List Byte × List Byte)) (buffered : List Byte)
    (position : Nat) : Prop :=
  ∃ entry ∈ heads.head?, Occurs entry.1 buffered position ∨
    buffered.length < entry.1.length ∧ position = 0

variable {heads : List (List Byte × List Byte)} {buffered : List Byte}
  {position : Nat}

theorem resyncHeads_eq_drop_iff
    (nonempty : ∀ entry ∈ heads, entry.1 ≠ [])
    (earliest : IsLeast
      {place | ∃ entry ∈ heads, Occurs entry.1 buffered place} position) :
    resyncHeads heads buffered = buffered.drop position ↔
      FirstHeadAt heads buffered position := by
  obtain ⟨⟨found, member, occurs⟩, least⟩ := earliest
  have inside := occurs.position_add_le (nonempty found member)
  have foundPositive := List.length_pos_iff.mpr (nonempty found member)
  cases heads with
  | nil => cases member
  | cons entry rest =>
      have entryNonempty := nonempty entry List.mem_cons_self
      simp only [FirstHeadAt, List.head?_cons, Option.mem_some,
        exists_eq_left', resyncHeads]
      rcases Nat.lt_or_ge buffered.length entry.1.length with short | long
      · rw [resync_of_short short]
        constructor
        · intro same
          have lengths := congrArg List.length same
          rw [List.length_drop] at lengths
          exact Or.inr ⟨short, by omega⟩
        · rintro (here | ⟨_, rfl⟩)
          · have bound := here.position_add_le entryNonempty
            omega
          · rfl
      have searched : ¬ (buffered.length < entry.1.length ∧ position = 0) :=
        fun claimed => by omega
      rw [or_iff_left searched]
      cases match? : find? entry.1 buffered with
      | none =>
          rw [resync_of_absent long match?]
          refine iff_of_false (fun same => ?_)
            (find?_eq_none_iff.mp match? position)
          have lengths := congrArg List.length same
          rw [List.length_drop, List.length_nil] at lengths
          omega
      | some place =>
          have first := find?_eq_some_iff.mp match?
          have placeInside := first.position_le
          have after : position ≤ place :=
            least ⟨entry, List.mem_cons_self, first.occurs⟩
          rw [resync_of_first long first]
          constructor
          · intro same
            have lengths := congrArg List.length same
            rw [List.length_drop, List.length_drop] at lengths
            have equal : place = position := by omega
            exact equal ▸ first.occurs
          · intro here
            have before : place ≤ position :=
              Nat.le_of_not_lt fun less => first.earliest position less here
            rw [le_antisymm before after]

theorem read_keeps_earliest_head_iff {serial : Serial}
    (nonempty : ∀ entry ∈ serial.headTails.entries, entry.1 ≠ [])
    {events : List PortEvent} {chunk : List Byte}
    (allowed : serial.reader.Admits serial.PortAllowed serial.start
      (events ++ [.bytes chunk]))
    {position : Nat} :
    let state := serial.reader.exec serial.start events
    let buffered := state.window ++ chunk
    IsLeast {place | ∃ entry ∈ serial.headTails.entries,
        Occurs entry.1 buffered place} position →
      ((serial.onBytes state chunk).window = buffered.drop position ↔
        FirstHeadAt serial.headTails.entries buffered position) := by
  intro state buffered earliest
  obtain ⟨before, here, _⟩ :=
    (Machine.admits_append _ _ _ _ _).mp allowed
  obtain ⟨window, holds⟩ := holding_exec before
  have room : window.length + chunk.length ≤ serial.bufferSize := by
    have delivered := here.2
    rw [holds.length] at delivered
    have fitting := holds.length_le
    omega
  have searched : (serial.onBytes state chunk).window =
      resyncHeads serial.headTails.entries buffered := by
    rw [(holds_onBytes holds room).kept, ← holds.kept]
  rw [searched]
  exact resyncHeads_eq_drop_iff nonempty earliest

theorem read_drops_second_head :
    let serial := ((Serial.new 16).addRxHeadTail [0xfd, 0xee] []).addRxHeadTail
      [0xfe, 0xee] []
    let chunk := [0xfe, 0xee, 0x00]
    serial.reader.Admits serial.PortAllowed serial.start [.bytes chunk] ∧
      IsLeast {place | ∃ entry ∈ serial.headTails.entries,
        Occurs entry.1 chunk place} 0 ∧
      (serial.onBytes serial.start chunk).window ≠ chunk.drop 0 := by
  intro serial chunk
  refine ⟨by decide, ⟨⟨([0xfe, 0xee], []), by decide, ?_⟩, ?_⟩, by decide⟩
  · exact List.prefix_append [0xfe, 0xee] [0x00]
  · exact fun place _ => Nat.zero_le place

theorem read_keeps_first_head :
    let serial := ((Serial.new 16).addRxHeadTail [0xfd, 0xee] []).addRxHeadTail
      [0xfe, 0xee] []
    (serial.onBytes serial.start [0x00, 0xfd, 0xee, 0xfe, 0xee]).window =
      [0xfd, 0xee, 0xfe, 0xee] := by
  intro serial
  have allowed : serial.reader.Admits serial.PortAllowed serial.start
      ([] ++ [.bytes [0x00, 0xfd, 0xee, 0xfe, 0xee]]) := by decide
  have earliest : IsLeast {place | ∃ entry ∈ serial.headTails.entries,
      Occurs entry.1 [0x00, 0xfd, 0xee, 0xfe, 0xee] place} 1 := by
    refine ⟨⟨([0xfd, 0xee], []), by decide, ?_⟩, ?_⟩
    · exact List.prefix_append [0xfd, 0xee] [0xfe, 0xee]
    · rintro place ⟨entry, member, occurs⟩
      by_contra before
      have start : place = 0 := by omega
      subst start
      exact absurd occurs ((by decide :
        ∀ entry ∈ serial.headTails.entries,
          ¬ entry.1 <+: [0x00, 0xfd, 0xee, 0xfe, 0xee]) entry member)
  have keeps := read_keeps_earliest_head_iff (by decide) allowed earliest
  refine keeps.mpr ⟨([0xfd, 0xee], []), by decide, Or.inl ?_⟩
  exact List.prefix_append [0xfd, 0xee] [0xfe, 0xee]

end Heads

end Serial

end RoboBand.Io
