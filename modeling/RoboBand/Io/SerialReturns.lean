import RoboBand.Io.SerialWindow

namespace RoboBand.Io

open RoboBand.Data

/-! What a call of `Serial::read` hands over of the bytes that the port
delivered during it. -/

def PortEvent.delivered : PortEvent → List Byte
  | .bytes chunk => chunk
  | .empty _ => []
  | .failed _ => []

def delivered (events : List PortEvent) : List Byte :=
  events.flatMap PortEvent.delivered

theorem delivered_concat (events : List PortEvent) (event : PortEvent) :
    delivered (events ++ [event]) = delivered events ++ event.delivered := by
  simp [delivered]

namespace Serial

/-- The window is the end of what was delivered, and begins with the one head
as soon as it is long enough. -/
structure Tails (serial : Serial) (stream window : List Byte) : Prop where
  suffix : window <:+ stream
  aligned : ∀ head tail, serial.headTails.entries = [(head, tail)] →
    head.length ≤ window.length → head <+: window

theorem tails_nil (serial : Serial) (stream : List Byte) :
    serial.Tails stream [] where
  suffix := List.nil_suffix
  aligned := fun _ _ _ short =>
    List.length_eq_zero_iff.mp (Nat.eq_zero_of_le_zero short) ▸ List.nil_prefix

section Window

variable {serial : Serial} {stream window chunk : List Byte}

theorem resyncHeads_suffix (heads : List (List Byte × List Byte))
    (buffered : List Byte) : resyncHeads heads buffered <:+ buffered := by
  cases heads with
  | nil => exact List.suffix_refl buffered
  | cons entry rest => exact resync_suffix entry.1 buffered

theorem Tails.resync (tails : serial.Tails stream window) (chunk : List Byte) :
    serial.Tails (stream ++ chunk)
      (resyncHeads serial.headTails.entries (window ++ chunk)) where
  suffix := by
    obtain ⟨earlier, rfl⟩ := tails.suffix
    refine (resyncHeads_suffix _ _).trans ⟨earlier, ?_⟩
    rw [List.append_assoc]
  aligned := fun head tail single long => by
    rw [single] at long ⊢
    exact prefix_resync long

/-- What a call returns: the whole of the window. -/
def Hands (serial : Serial) (stream : List Byte) (received : Received) : Prop :=
  0 ≤ received.ret →
    ∃ window, received.data.take received.ret.toNat = window ∧
      received.ret = window.length ∧ serial.Tails stream window

theorem hands_window {state : ReadState}
    (holds : Holds serial.bufferSize state window)
    (tails : serial.Tails stream window) :
    serial.Hands stream ⟨state.readLen, state.data⟩ :=
  fun _ => ⟨window, holds.kept, congrArg Nat.cast holds.length, tails⟩

end Window

/-- The state of a call, and the events of the call so far. -/
def Collects (serial : Serial) (both : ReadState × List PortEvent) : Prop :=
  ∃ window, Holds serial.bufferSize both.1 window ∧
    serial.Tails (delivered both.2) window

def Answers (serial : Serial) (both : ReadState × List PortEvent)
    (event : PortEvent) : Prop :=
  serial.Collects (serial.reader.spanned.step both event).1 ∧
    ∀ answer ∈ (serial.reader.spanned.step both event).2,
      serial.Hands (delivered answer.2) answer.1

section Step

variable {serial : Serial} {state : ReadState} {span : List PortEvent}
  {event : PortEvent}

theorem collects_start (serial : Serial) (span : List PortEvent) :
    serial.Collects (serial.start, span) :=
  ⟨[], holds_start serial, serial.tails_nil _⟩

theorem answers_of_running {next : ReadState}
    (stepped : serial.reader.step state event = (next, []))
    (collects : serial.Collects (next, span ++ [event])) :
    serial.Answers (state, span) event := by
  have turn : serial.reader.spanned.step (state, span) event =
      ((next, span ++ [event]), []) := by
    simp [Machine.spanned, stepped]
  rw [Answers, turn]
  exact ⟨collects, fun _ member => nomatch member⟩

theorem answers_of_returned {received : Received}
    (stepped : serial.reader.step state event = (serial.start, [received]))
    (hands : serial.Hands (delivered (span ++ [event])) received) :
    serial.Answers (state, span) event := by
  have turn : serial.reader.spanned.step (state, span) event =
      ((serial.start, []), [(received, span ++ [event])]) := by
    simp [Machine.spanned, stepped]
  rw [Answers, turn]
  refine ⟨serial.collects_start [], fun answer member => ?_⟩
  obtain rfl := List.mem_singleton.mp member
  exact hands

theorem answers_of_window {next : ReadState} {window : List Byte}
    (body : serial.loopBody state event = .running next)
    (holds : Holds serial.bufferSize next window)
    (tails : serial.Tails (delivered (span ++ [event])) window) :
    serial.Answers (state, span) event := by
  by_cases partly : next.readLen < serial.bufferSize
  · have stepped : serial.reader.step state event = (next, []) := by
      simp [reader, readTurn, body, loopTest, partly]
    exact answers_of_running stepped ⟨window, holds, tails⟩
  · have stepped : serial.reader.step state event =
        (serial.start, [⟨next.readLen, next.data⟩]) := by
      simp [reader, readTurn, body, loopTest, partly]
    exact answers_of_returned stepped (hands_window holds tails)

theorem answers_of_allowed
    (collects : serial.Collects (state, span))
    (allowed : serial.PortAllowed state event) :
    serial.Answers (state, span) event := by
  obtain ⟨window, holds, tails⟩ := collects
  cases event with
  | bytes chunk =>
      have asked := allowed.2
      rw [holds.length] at asked
      have fitting := holds.length_le
      refine answers_of_window rfl (holds_onBytes holds (by omega)) ?_
      rw [delivered_concat]
      exact tails.resync chunk
  | empty pollIn =>
      have same :
          serial.Tails (delivered (span ++ [.empty pollIn])) window := by
        rw [delivered_concat]
        exact (List.append_nil (delivered span)).symm ▸ tails
      cases pollIn with
      | false => exact answers_of_returned rfl (hands_window holds same)
      | true => exact answers_of_window rfl holds same
  | failed ret =>
      refine answers_of_returned rfl fun nonneg => ?_
      exact absurd nonneg (Int.not_le.mpr allowed)

end Step

/-- Over any calls of `Serial::read`, each answer beside the events of the call
it ends. -/
theorem read_returns_last_bytes (serial : Serial) (events : List PortEvent)
    (allowed : serial.reader.Admits serial.PortAllowed serial.start events) :
    let answers := serial.reader.spanned.outputs (serial.start, []) events
    answers.map Prod.fst = serial.reader.outputs serial.start events ∧
      ∀ answer ∈ answers, 0 ≤ answer.1.ret →
        let returned := answer.1.data.take answer.1.ret.toNat
        answer.1.ret = returned.length ∧ returned <:+ delivered answer.2 ∧
          ∀ head tail, serial.headTails.entries = [(head, tail)] →
            (head.length : ℤ) ≤ answer.1.ret → head <+: returned := by
  intro answers
  have admitted := (serial.reader.admits_spanned serial.PortAllowed
    serial.start [] events).mpr allowed
  have hands := Machine.forall_outputs_of_admits
    (fun _ _ collects allowed => (answers_of_allowed collects allowed).1)
    (fun _ _ collects allowed => (answers_of_allowed collects allowed).2)
    (serial.collects_start []) admitted
  refine ⟨serial.reader.outputs_spanned serial.start [] events, ?_⟩
  intro answer member nonneg
  obtain ⟨window, returned, length, tails⟩ := hands answer member nonneg
  simp only [returned]
  refine ⟨length, tails.suffix, fun head tail single long => ?_⟩
  exact tails.aligned head tail single (Int.ofNat_le.mp (length ▸ long))

/-- A frame, and a call that ends by a timeout behind the head. -/
theorem read_returns_last_bytes_of_timeout :
    let serial := (Serial.new 4).addRxHeadTail [0xfd, 0xee] []
    let events : List PortEvent := [.bytes [0, 0xfd, 0xee], .bytes [1, 2],
      .bytes [7, 0xfd, 0xee], .empty false]
    let answers := serial.reader.spanned.outputs (serial.start, []) events
    answers.map Prod.fst = serial.reader.outputs serial.start events ∧
      ∀ answer ∈ answers, 0 ≤ answer.1.ret →
        let returned := answer.1.data.take answer.1.ret.toNat
        answer.1.ret = returned.length ∧ returned <:+ delivered answer.2 ∧
          ∀ head tail, serial.headTails.entries = [(head, tail)] →
            (head.length : ℤ) ≤ answer.1.ret → head <+: returned :=
  read_returns_last_bytes _ _ (by decide)

end Serial

end RoboBand.Io
