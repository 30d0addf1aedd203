import RoboBand.Dev.UnitreeBank
import RoboBand.Dev.UnitreeFeedback
import RoboBand.Io.SerialFraming

namespace RoboBand.Dev

open RoboBand.Data UnitreeMotor

/-! From the bytes at the port to what the motors report: the thread of the
port in front, the motors behind it. -/

variable {Index : Type*} [DecidableEq Index]

inductive LineEvent (Index : Type*) where
  | port (event : Io.PortEvent)
  | request (index : Index) (request : Request)

def LineEvent.port? : LineEvent Index → Option Io.PortEvent
  | .port event => some event
  | .request _ _ => none

def BankEvent.buffer? : BankEvent Index → Option Io.Received
  | .buffer received => some received
  | .request _ _ => none

/-- What a call of `read` returns goes to the unpackers before the next call. -/
def portThread (serial : Io.Serial) :
    Machine Io.ReadState (LineEvent Index) (BankEvent Index) where
  step state
    | .port event =>
        let turned := serial.reader.step state event
        (turned.1, turned.2.map .buffer)
    | .request index request => (state, [.request index request])

def line (serial : Io.Serial) (crc : List Byte → BitVec 16)
    (order : List Index) :
    Machine (Io.ReadState × (Index → UnitreeMotor)) (LineEvent Index)
      (Index × List Byte) :=
  (portThread serial).pipe (bank crc order)

omit [DecidableEq Index] in
theorem portThread_projects (serial : Io.Serial) :
    Machine.Projects
      (portThread serial : Machine _ (LineEvent Index) _) serial.reader
      (fun _ => True) (fun state => state) (fun event => event.port?.toList)
      BankEvent.buffer? where
  kept _ _ _ := trivial
  moves state event _ := by
    cases event with
    | port event => rfl
    | request index request => rfl
  answers state event _ := by
    cases event with
    | port event =>
        change (List.map _ _).filterMap _ = _ ++ []
        rw [List.filterMap_map, List.append_nil]
        exact List.filterMap_some
    | request index request => rfl

omit [DecidableEq Index] in
theorem portThread_single (serial : Io.Serial) (state : Io.ReadState)
    (event : LineEvent Index) :
    (((portThread serial).step state event).2.filterMap
      BankEvent.buffer?).length ≤ 1 := by
  cases event with
  | port event =>
      change ((List.map _ (serial.reader.step state event).2).filterMap
        _).length ≤ 1
      refine (List.length_filterMap_le _ _).trans ?_
      rw [List.length_map]
      simp only [Io.Serial.reader]
      cases serial.readTurn state event with
      | running next => exact Nat.zero_le 1
      | returned ret data => exact le_rfl
  | request index request => exact Nat.zero_le 1

omit [DecidableEq Index] in
theorem portThread_step_eq_buffer {serial : Io.Serial} {state : Io.ReadState}
    {event : LineEvent Index} {received : Io.Received}
    (handed : ((portThread serial).step state event).2.filterMap
      BankEvent.buffer? = [received]) :
    ((portThread serial).step state event).2 = [.buffer received] := by
  cases event with
  | port event =>
      change (List.map _ (serial.reader.step state event).2).filterMap _ = _
        at handed
      rw [List.filterMap_map] at handed
      have alone : (serial.reader.step state event).2 = [received] :=
        List.filterMap_some.symm.trans handed
      exact congrArg (List.map BankEvent.buffer) alone
  | request index request => cases handed

section Telemetry

structure Telemetry where
  angle : ℚ
  speed : ℚ
  temp : ℤ
  err : MotorError

def telemetry (motor : UnitreeMotor) : Telemetry where
  angle := motor.angle
  speed := motor.speed
  temp := motor.temp
  err := motor.err

/-- What a motor reports whose offset this is when it gets the message. -/
def Telemetry.ofMsg (dir : ℤ) (angleOffset : ℚ) (msg : Feedback) :
    Telemetry where
  angle := rawAngle dir msg.angleFbk - angleOffset
  speed := rawSpeed dir msg.speedFbk
  temp := msg.tempFbk.toInt
  err := .ofBits msg.err

variable {crc : List Byte → BitVec 16}

variable (crc) in
/-- The message of a buffer that the motor with this id accepts. -/
def heardIn? (id : Byte) (data : ℕ → Byte) : Option Feedback :=
  if Accepts crc id data then some (Data.readFeedback data).msg else none

variable (crc) in
def UnitreeMotor.Call.heard? (id : Byte) : Call → Option Feedback
  | .unpack data _ => heardIn? crc id data
  | .setTorque _ | .setAngelOffset _ | .setAngel _ => none

theorem Request.heard?_made (id : Byte) (request : Request) :
    request.made.heard? crc id = none := by
  cases request with
  | setTorque torque => rfl
  | setAngelOffset angleOffset => rfl
  | setAngel currentAngle => rfl

theorem step_telemetry (motor : UnitreeMotor) (call : Call) :
    telemetry ((running crc).step motor call).1 =
      ((call.heard? crc motor.id).map
        (Telemetry.ofMsg motor.dir motor.angleOffset)).getD
          (telemetry motor) := by
  cases call with
  | setTorque torque => rfl
  | setAngelOffset angleOffset => rfl
  | setAngel currentAngle => rfl
  | unpack data len =>
      rw [running_unpack, unpack_eq, Call.heard?, heardIn?]
      split
      · rfl
      · rfl

/-- A motor that hears nothing reports what it did. -/
theorem exec_telemetry_of_unheard {motor : UnitreeMotor} {calls : List Call}
    (unheard : calls.filterMap (Call.heard? crc motor.id) = []) :
    telemetry ((running crc).exec motor calls) = telemetry motor :=
  exec_kept telemetry (fun id call => call.heard? crc id = none)
    (fun state call silent => by rw [step_telemetry, silent]; rfl)
    (List.filterMap_eq_nil_iff.mp unheard)

variable (crc) in
/-- The message that a motor takes from what a call of `read` returned. -/
def heardOf? (id : Byte) (received : Io.Received) : Option Feedback :=
  if 0 < received.ret then heardIn? crc id (received.data.getD · 0) else none

theorem heard_callsOf (id : Byte) (index : Index) (event : BankEvent Index) :
    (event.callsOf index).filterMap (Call.heard? crc id) =
      (event.buffer?.bind (heardOf? crc id)).toList := by
  cases event with
  | buffer received =>
      change _ = (heardOf? crc id received).toList
      rw [BankEvent.callsOf, heardOf?]
      split
      · exact (List.filterMap_eq_flatMap_toList _ _).trans
          (List.flatMap_singleton _ _)
      · rfl
  | request other request =>
      rw [BankEvent.callsOf]
      split
      · rw [List.filterMap_cons_none (request.heard?_made id)]
        rfl
      · rfl

/-- Only buffers are heard, each as the call of `read` that returned it left
it. -/
theorem filterMap_heard_callsOf (id : Byte) (index : Index)
    (events : List (BankEvent Index)) :
    (events.flatMap (BankEvent.callsOf index)).filterMap
        (Call.heard? crc id) =
      (events.filterMap BankEvent.buffer?).filterMap (heardOf? crc id) := by
  rw [List.filterMap_flatMap, List.filterMap_filterMap,
    List.filterMap_eq_flatMap_toList]
  exact congrArg (fun heard => events.flatMap heard)
    (funext (heard_callsOf id index))

theorem heardIn?_frame (reply : Reply) (id : Byte) :
    heardIn? crc id ((reply.frame crc).getD · 0) =
      if reply.info.id.setWidth 8 = id then some reply.msg else none := by
  rw [heardIn?, Reply.readFeedback_frame]
  exact if_congr (reply.accepts_frame_iff crc id) rfl rfl

end Telemetry

/-- The line as the constructors of the motors leave it. -/
def registered (order : List Index) : Io.Serial :=
  order.foldl
    (fun serial _ => serial.addRxHeadTail [resvHead.1, resvHead.2] [])
    (.new 16)

omit [DecidableEq Index] in
theorem registered_bufferSize (order : List Index) :
    (registered order).bufferSize = 16 :=
  List.foldlRecOn (motive := fun serial : Io.Serial => serial.bufferSize = 16)
    order _ rfl fun _ same _ _ => same

omit [DecidableEq Index] in
theorem registered_entries {order : List Index} (nonempty : order ≠ []) :
    (registered order).headTails.entries =
      [([resvHead.1, resvHead.2], [])] := by
  cases order with
  | nil => exact absurd rfl nonempty
  | cons index rest =>
      refine List.foldlRecOn
        (motive := fun serial : Io.Serial => serial.headTails.entries =
          [([resvHead.1, resvHead.2], [])])
        rest _ rfl fun serial same _ _ => ?_
      change insertOrAssign _ _ serial.headTails.entries = _
      rw [same]
      rfl

omit [DecidableEq Index] in
theorem registered_line {order : List Index} (nonempty : order ≠ [])
    {stream : List Byte} {events : List Io.PortEvent}
    (delivered : (Io.chunks events).flatten = stream)
    (undisturbed : ∀ event ∈ events, event.undisturbed = true)
    (allowed : (registered order).reader.Admits
      (registered order).PortAllowed (registered order).start events) :
    Io.Serial.Line (registered order) [resvHead.1, resvHead.2] stream
      events where
  single := ⟨[], registered_entries nonempty⟩
  nonempty := List.cons_ne_nil _ _
  headFits := by
    rw [registered_bufferSize]
    decide
  delivered := delivered
  undisturbed := undisturbed
  allowed := allowed

omit [DecidableEq Index] in
/-- The thread of the port hands over each answer once, in their order. -/
theorem portThread_hands_replies (crc : List Byte → BitVec 16)
    {order : List Index} {replies : List Reply}
    {events : List (LineEvent Index)}
    (carries : Io.Serial.Line (registered order)
      [resvHead.1, resvHead.2] (replies.map (Reply.frame crc)).flatten
      (events.filterMap LineEvent.port?)) :
    ((portThread (registered order)).outputs (registered order).start
        events).filterMap BankEvent.buffer? =
      (replies.map (Reply.frame crc)).map (⟨16, ·⟩) := by
  obtain ⟨refines, fits⟩ := carries.refines
  have empty : ([] : List Byte).length < (registered order).bufferSize :=
    carries.positive
  have framed : Framed [resvHead.1, resvHead.2] (registered order).bufferSize
      (replies.map (Reply.frame crc)) := by
    intro frame member
    obtain ⟨reply, _, rfl⟩ := List.mem_map.mp member
    exact ⟨registered_bufferSize order ▸ reply.length_frame crc,
      reply.head_isPrefix_frame crc⟩
  rw [(portThread_projects (registered order)).outputs trivial,
    ← List.filterMap_eq_flatMap_toList, refines,
    framer_outputs_clean carries.positive framed empty carries.delivered fits,
    registered_bufferSize]
  rfl

theorem filterMap_heardOf_frames (crc : List Byte → BitVec 16) (id : Byte)
    (replies : List Reply) :
    ((replies.map (Reply.frame crc)).map
        (Io.Received.mk 16)).filterMap (heardOf? crc id) =
      (replies.filter fun reply => reply.info.id.setWidth 8 = id).map
        Reply.msg := by
  induction replies with
  | nil => rfl
  | cons reply rest ih =>
      have positive : (0 : ℤ) < 16 := by decide
      have here : heardOf? crc id ⟨16, reply.frame crc⟩ =
          if reply.info.id.setWidth 8 = id then some reply.msg else none :=
        (if_pos positive).trans (heardIn?_frame reply id)
      rw [List.map_cons, List.map_cons, List.filterMap_cons, here, ih,
        List.filter_cons]
      by_cases own : reply.info.id.setWidth 8 = id
      · simp only [own, if_true, decide_true, List.map_cons]
      · simp only [own, if_false, decide_false]
        rfl

section Handed

variable {order : List Index} {motors : Index → UnitreeMotor} {index : Index}

theorem exec_distinct (crc : List Byte → BitVec 16) (member : index ∈ order)
    (distinct : Distinct motors) (handed : List (BankEvent Index)) :
    Distinct ((bank crc order).exec motors handed) :=
  Machine.exec_invariant (bank_projects crc member).kept distinct handed

theorem exec_bank_identity (crc : List Byte → BitVec 16)
    (member : index ∈ order) (distinct : Distinct motors)
    (handed : List (BankEvent Index)) :
    ((bank crc order).exec motors handed index).id = (motors index).id ∧
      ((bank crc order).exec motors handed index).dir =
        (motors index).dir := by
  rw [(bank_projects crc member).exec distinct]
  exact exec_identity crc _ _

/-- Answers with other ids are nothing to the motor. -/
theorem exec_telemetry_of_foreign (crc : List Byte → BitVec 16)
    (member : index ∈ order) (distinct : Distinct motors)
    {replies : List Reply} {handed : List (BankEvent Index)}
    (buffers : handed.filterMap BankEvent.buffer? =
      (replies.map (Reply.frame crc)).map (Io.Received.mk 16))
    (foreign : ∀ reply ∈ replies,
      reply.info.id.setWidth 8 ≠ (motors index).id) :
    telemetry ((bank crc order).exec motors handed index) =
      telemetry (motors index) := by
  rw [(bank_projects crc member).exec distinct]
  refine exec_telemetry_of_unheard ?_
  rw [filterMap_heard_callsOf, buffers, filterMap_heardOf_frames,
    List.filter_eq_nil_iff.mpr fun reply listed => ?_, List.map_nil]
  rw [decide_eq_true_iff]
  exact foreign reply listed

theorem exec_telemetry_of_own (crc : List Byte → BitVec 16)
    (member : index ∈ order) (distinct : Distinct motors) {reply : Reply}
    (own : reply.info.id.setWidth 8 = (motors index).id) :
    telemetry ((bank crc order).exec motors
        [.buffer ⟨16, reply.frame crc⟩] index) =
      .ofMsg (motors index).dir (motors index).angleOffset reply.msg := by
  have calls : [BankEvent.buffer ⟨16, reply.frame crc⟩].flatMap
      (BankEvent.callsOf index) =
      [.unpack ((reply.frame crc).getD · 0) 16] := rfl
  have heard : Call.heard? crc (motors index).id
      (.unpack ((reply.frame crc).getD · 0) 16) = some reply.msg :=
    (heardIn?_frame reply _).trans (if_pos own)
  rw [(bank_projects crc member).exec distinct, calls, Machine.exec_cons,
    Machine.exec_nil, step_telemetry, heard]
  rfl

end Handed

/-- Whatever is asked of the motors meanwhile, and however the port cuts the
answers into chunks: once they are through, each motor reports what the last
answer with its id says, its angle less the offset that was in force when this
answer was handed over. -/
theorem line_reports_last_reply (crc : List Byte → BitVec 16)
    {motors : Index → UnitreeMotor} (distinct : Distinct motors)
    {order : List Index} {index : Index} (member : index ∈ order)
    {replies : List Reply} {events : List (LineEvent Index)}
    (delivered : (Io.chunks (events.filterMap LineEvent.port?)).flatten =
      (replies.map (Reply.frame crc)).flatten)
    (undisturbed : ∀ event ∈ events.filterMap LineEvent.port?,
      event.undisturbed = true)
    (allowed : (registered order).reader.Admits
      (registered order).PortAllowed (registered order).start
      (events.filterMap LineEvent.port?)) :
    let run := (line (registered order) crc order).exec
      ((registered order).start, motors)
    let handed events := ((portThread (registered order)).outputs
      (registered order).start events).filterMap BankEvent.buffer?
    let received (replies : List Reply) : List Io.Received :=
      (replies.map (Reply.frame crc)).map (⟨16, ·⟩)
    ((∀ reply ∈ replies, reply.info.id.setWidth 8 ≠ (motors index).id) →
      telemetry ((run events).2 index) = telemetry (motors index)) ∧
    ∀ earlier reply later, replies = earlier ++ reply :: later →
      reply.info.id.setWidth 8 = (motors index).id →
      (∀ other ∈ later, other.info.id.setWidth 8 ≠ (motors index).id) →
      ∃ before event after, events = before ++ event :: after ∧
        handed before = received earlier ∧
        handed (before ++ [event]) = received (earlier ++ [reply]) ∧
        telemetry ((run events).2 index) =
          .ofMsg (motors index).dir ((run before).2 index).angleOffset
            reply.msg := by
  intro run handed received
  have carries := registered_line (List.ne_nil_of_mem member) delivered
    undisturbed allowed
  have whole := portThread_hands_replies crc carries
  have behind : ∀ events, (run events).2 = (bank crc order).exec motors
      ((portThread (registered order)).outputs (registered order).start
        events) :=
    fun events => congrArg Prod.snd (Machine.exec_pipe _ _ _ _ _)
  refine ⟨fun foreign => ?_, ?_⟩
  · rw [behind]
    exact exec_telemetry_of_foreign crc member distinct whole foreign
  · rintro earlier reply later rfl own foreign
    rw [List.map_append, List.map_append, List.map_cons, List.map_cons] at whole
    obtain ⟨before, event, after, rfl, quiet, answered, onward⟩ :=
      Machine.exists_event_of_outputs (portThread_single _) whole
    have here := portThread_step_eq_buffer answered
    refine ⟨before, event, after, rfl, quiet, ?_, ?_⟩
    · simp only [handed, received, Machine.outputs_append,
        Machine.outputs_cons, Machine.outputs_nil, List.append_nil,
        List.filterMap_append, quiet, answered, List.map_append, List.map_cons,
        List.map_nil]
    · let reached := (bank crc order).exec motors
        ((portThread (registered order)).outputs (registered order).start
          before)
      let told := (bank crc order).exec reached
        [.buffer ⟨16, reply.frame crc⟩]
      have apart : Distinct reached := exec_distinct crc member distinct _
      have sameReached := exec_bank_identity crc member distinct
        ((portThread (registered order)).outputs (registered order).start
          before)
      have sameTold := exec_bank_identity crc member apart
        [.buffer ⟨16, reply.frame crc⟩]
      have spoken := exec_telemetry_of_own crc member apart
        (own.trans sameReached.1.symm)
      have silent := exec_telemetry_of_foreign crc member
        (exec_distinct crc member apart _) onward
        (fun other listed => by
          rw [sameTold.1, sameReached.1]
          exact foreign other listed)
      rw [behind, behind, Machine.outputs_append, Machine.outputs_cons, here,
        Machine.exec_append, Machine.exec_append]
      exact silent.trans (sameReached.2 ▸ spoken)

/-- The offset is set while the second answer is on its way, and again once it
is through. -/
theorem line_reports_last_reply_of_two :
    let motors : Bool → UnitreeMotor := fun second =>
      .new ⟨0, 0, ⟨0, 0, 0⟩, ⟨0, 0, 0, 0, 0⟩, 0⟩ (if second then 1 else 0) 1
    let order := [false, true]
    let events := [.port (.bytes [0xfd, 0xee, 0x10, 0, 0, 0]),
      .request true (.setTorque 1),
      .port (.bytes [1, 0, 0, 0, 0, 25, 0, 0, 0xd0, 0x79]),
      .request false (.setAngel 0), .port (.empty true),
      .port (.bytes [0xfd, 0xee, 0x11, 0, 0, 0, 2]),
      .request true (.setAngelOffset 3),
      .port (.bytes [0, 0x40, 0, 0, 25, 1, 0, 0x5c, 0x6d]),
      .request true (.setAngelOffset 5)]
    let run := (line (registered order) kermit order).exec
      ((registered order).start, motors)
    ∃ before event after, events = before ++ event :: after ∧
      telemetry ((run events).2 true) =
        .ofMsg 1 ((run before).2 true).angleOffset
          ⟨0, 512, 0x4000, 25, 1, 0, 0⟩ := by
  intro motors order events run
  let foreign : Reply := ⟨⟨0, 1, 0⟩, ⟨0, 256, 0, 25, 0, 0, 0⟩⟩
  let own : Reply := ⟨⟨1, 1, 0⟩, ⟨0, 512, 0x4000, 25, 1, 0, 0⟩⟩
  have distinct : Distinct motors := by
    intro first second
    revert first second
    decide
  have delivered : (Io.chunks (events.filterMap LineEvent.port?)).flatten =
      ([foreign, own].map (Reply.frame kermit)).flatten := by decide +kernel
  obtain ⟨before, event, after, whole, _, _, reports⟩ :=
    (line_reports_last_reply kermit distinct
      (by decide : true ∈ order) delivered (by decide) (by decide)).2 [foreign]
        own [] rfl rfl (List.forall_mem_nil _)
  exact ⟨before, event, after, whole, reports⟩

end RoboBand.Dev
