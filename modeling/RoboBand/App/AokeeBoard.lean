import RoboBand.App.AokeeCalibration
import RoboBand.Dev.UnitreeBank
import RoboBand.Dev.UnitreeGate

namespace RoboBand.App

open RoboBand.Data RoboBand.Dev RoboBand.Util

/-! The frames that the motors of the robot send: whom they are for, and what
they carry. -/

def SentTo (index : Fin 6) (frame : List Byte) : Prop :=
  (Data.readCommand (frame.getD · 0)).info.id.toNat = index.val

def torqueOf (frame : List Byte) : BitVec 16 :=
  (Data.readCommand (frame.getD · 0)).msg.torqueSet

/-- What the frames of the motors rest on: each motor has the id of its place,
and the direction of the configuration. -/
structure Board (dir : Fin 6 → ℤ) (motors : Fin 6 → UnitreeMotor) : Prop
    extends Numbered motors where
  sentId : ∀ index, (motors index).sendData.info.id = .ofNat 4 index.val
  dir : ∀ index, (motors index).dir = dir index

section Board

variable {crc : List Byte → BitVec 16} {dir : Fin 6 → ℤ}
  {motors : Fin 6 → UnitreeMotor}

theorem board_aokeeMotors (memory : Fin 6 → Dev.Data Command) :
    Board dir (aokeeMotors memory dir) where
  id _ := rfl
  sentId index := by
    change BitVec.setWidth 4 (BitVec.ofNat 8 index.val) = _
    revert index
    decide
  dir _ := rfl

theorem Board.update (kept : Board dir motors) (index : Fin 6)
    {motor : UnitreeMotor} (id : motor.id = (motors index).id)
    (sentId : motor.sendData.info.id = (motors index).sendData.info.id)
    (sameDir : motor.dir = (motors index).dir) :
    Board dir (Function.update motors index motor) := by
  have same : ∀ {Value : Type} (value : UnitreeMotor → Value),
      value motor = value (motors index) →
      ∀ other, value (Function.update motors index motor other) =
        value (motors other) := by
    intro Value value equal other
    rw [Function.update_apply]
    split
    · rename_i here
      rw [here, equal]
    · rfl
  exact {
    id := fun other => (same UnitreeMotor.id id other).trans (kept.id other)
    sentId := fun other => (same (fun motor => motor.sendData.info.id) sentId
      other).trans (kept.sentId other)
    dir := fun other => (same UnitreeMotor.dir sameDir other).trans
      (kept.dir other) }

theorem Board.hear (kept : Board dir motors) (frame : (ℕ → Byte) × ℤ) :
    Board dir (hear crc motors frame) := by
  have identity : ∀ index,
      (App.hear crc motors frame index).id = (motors index).id ∧
      (App.hear crc motors frame index).dir = (motors index).dir ∧
      (App.hear crc motors frame index).sendData =
        (motors index).sendData := by
    intro index
    rw [App.hear, receive_apply kept.distinct (List.mem_finRange index)]
    split
    · exact heard_identity _ _
    · exact ⟨rfl, rfl, rfl⟩
  exact {
    id := fun index => (identity index).1.trans (kept.id index)
    sentId := fun index => (congrArg (fun data => data.info.id)
      (identity index).2.2).trans (kept.sentId index)
    dir := fun index => (identity index).2.1.trans (kept.dir index) }

theorem Board.setTorque (kept : Board dir motors) (index : Fin 6)
    (torque : ℚ) :
    Board dir (Function.update motors index
      ((motors index).setTorque crc torque).1) :=
  kept.update index rfl rfl rfl

theorem Board.sentTo (kept : Board dir motors) (index : Fin 6) (torque : ℚ) :
    SentTo index ((motors index).setTorque crc torque).2 := by
  rw [SentTo, UnitreeMotor.readCommand_frame]
  change (motors index).sendData.info.id.toNat = _
  rw [kept.sentId, BitVec.toNat_ofNat]
  omega

theorem Board.told (kept : Board dir motors) (index : Fin 6)
    (torque : ℚ) :
    if (motors index).err = .normal then
      UnitreeMotor.Quantised (UnitreeMotor.computedTorque (dir index) torque)
        (torqueOf ((motors index).setTorque crc torque).2).toInt
    else torqueOf ((motors index).setTorque crc torque).2 = 0 := by
  rw [torqueOf, UnitreeMotor.torqueSet_frame, kept.dir]
  split
  · exact UnitreeMotor.quantised_quantise _ torque
  · rfl

theorem torqueOf_zero (index : Fin 6) :
    torqueOf ((motors index).setTorque crc 0).2 = 0 := by
  rw [torqueOf, UnitreeMotor.torqueSet_frame, UnitreeMotor.quantise_zero,
    ite_self]

end Board

section DevInit

variable {config : AokeeConfig} {crc : List Byte → BitVec 16}
  {dir : Fin 6 → ℤ}

/-- Only the joints are driven. -/
def Driving (frames : List (List Byte)) : Prop :=
  ∀ frame ∈ frames, ∃ joint, SentTo (jointMotor joint) frame

/-- What `devInit` has sent when it is at this point: in the end every motor in
turn is told to rest. -/
def Parking (frames : List (List Byte)) : InitPoint → Prop
  | .park rest => ∃ earlier last told, frames = earlier ++ last ∧
      Driving earlier ∧ parked = told ++ rest ∧
      List.Forall₂ SentTo told last ∧ ∀ frame ∈ last, torqueOf frame = 0
  | _ => Driving frames

theorem Driving.send {state : InitState} {frames : List (List Byte)}
    (driving : Driving frames) (board : Board dir state.motors)
    (joint : Fin 4) (torque : ℚ) :
    Driving (frames ++
      [((state.motors (jointMotor joint)).setTorque crc torque).2]) :=
  List.forall_mem_append.mpr ⟨driving,
    List.forall_mem_singleton.mpr ⟨joint, board.sentTo _ torque⟩⟩

theorem Parking.turn {state : InitState} (board : Board dir state.motors)
    {frames : List (List Byte)} (parking : Parking frames state.point) :
    Board dir (state.turn config crc).1.motors ∧
      Parking (frames ++ (state.turn config crc).2)
        (state.turn config crc).1.point := by
  obtain ⟨motors, pidRetract, t, point⟩ := state
  cases point with
  | command joint =>
      refine ⟨board, ?_⟩
      rw [InitState.turn, List.append_nil]
      exact parking
  | send joint torque =>
      have driven : Driving (frames ++
          [((motors (jointMotor joint)).setTorque crc torque).2]) :=
        Driving.send parking board joint torque
      refine ⟨board.setTorque _ torque, ?_⟩
      simp only [InitState.turn, InitState.setTorque]
      cases nextJoint joint with
      | none => exact driven
      | some next => exact driven
  | sleep =>
      simp only [InitState.turn]
      split
      · exact ⟨board, (List.append_nil frames).symm ▸ parking⟩
      · exact ⟨board, (List.append_nil frames).symm ▸ parking⟩
  | check joint stopped =>
      simp only [InitState.turn, List.append_nil]
      unfold InitState.afterCheck
      split
      · exact ⟨board, parking⟩
      · exact ⟨board, parking⟩
      · exact ⟨board, parking⟩
  | calibrate joint =>
      refine ⟨board.update _ rfl rfl rfl, ?_⟩
      simp only [InitState.turn, List.append_nil]
      cases nextJoint joint with
      | none =>
          exact ⟨frames, [], [], (List.append_nil frames).symm, parking, rfl,
            .nil, List.forall_mem_nil _⟩
      | some next => exact parking
  | park rest =>
      cases rest with
      | nil =>
          refine ⟨board, ?_⟩
          rw [InitState.turn, List.append_nil]
          exact parking
      | cons index rest =>
          obtain ⟨earlier, last, told, rfl, driving, order, sent, idle⟩ :=
            parking
          refine ⟨board.setTorque index 0, earlier, _, told ++ [index],
            List.append_assoc _ _ _, driving, ?_, ?_, ?_⟩
          · rw [order, List.append_assoc, List.singleton_append]
          · exact List.rel_append sent
              (.cons (board.sentTo index 0) .nil)
          · refine List.forall_mem_append.mpr ⟨idle,
              List.forall_mem_singleton.mpr ?_⟩
            exact torqueOf_zero index

/-- The motors that the port has fed since it was run, in a robot that is
about to go through `devInit`. -/
def beforeInit (crc : List Byte → BitVec 16)
    (memory : Fin 6 → Dev.Data Command) (dir : Fin 6 → ℤ)
    (pidRetract : Fin 4 → Pid) (earlier : List ((ℕ → Byte) × ℤ)) : InitState :=
  devInitStart (earlier.foldl (hear crc) (aokeeMotors memory dir)) pidRetract

theorem board_beforeInit (memory : Fin 6 → Dev.Data Command)
    (pidRetract : Fin 4 → Pid) (earlier : List ((ℕ → Byte) × ℤ)) :
    Board dir (beforeInit crc memory dir pidRetract earlier).motors :=
  List.foldlRecOn (motive := Board dir) earlier _ (board_aokeeMotors memory)
    fun _ kept frame _ => kept.hear frame

theorem exec_parking (config : AokeeConfig) {start : InitState}
    (board : Board dir start.motors) (begins : start.point = .command 0)
    (events : List InitEvent) :
    Board dir ((devInit config crc).exec start events).motors ∧
      Parking ((devInit config crc).outputs start events)
        ((devInit config crc).exec start events).point := by
  have initially : Board dir start.motors ∧
      Parking ((devInit config crc).outputs start []) start.point := by
    rw [begins]
    exact ⟨board, List.forall_mem_nil _⟩
  have kept : ∀ events (state : InitState) event,
      (devInit config crc).exec start events = state →
      Board dir state.motors ∧
        Parking ((devInit config crc).outputs start events) state.point →
      Board dir ((devInit config crc).step state event).1.motors ∧
        Parking ((devInit config crc).outputs start (events ++ [event]))
          ((devInit config crc).step state event).1.point := by
    rintro events state event rfl ⟨here, parking⟩
    rw [Machine.outputs_append, Machine.outputs_cons, Machine.outputs_nil,
      List.append_nil]
    cases event with
    | frame data len =>
        refine ⟨here.hear (data, len), ?_⟩
        change Parking (_ ++ []) _
        rw [List.append_nil]
        exact parking
    | turn => exact parking.turn here
  exact Machine.exec_history initially kept events

/-- Each motor stands at the error that it has last been heard to report. -/
def Warned (crc : List Byte → BitVec 16) (frames : List ((ℕ → Byte) × ℤ))
    (motors : Fin 6 → UnitreeMotor) : Prop :=
  ∀ index, (motors index).err =
    UnitreeMotor.lastError crc (.ofNat 8 index.val) frames

theorem Warned.hear {frames : List ((ℕ → Byte) × ℤ)}
    {motors : Fin 6 → UnitreeMotor} (warned : Warned crc frames motors)
    (board : Board dir motors) (frame : (ℕ → Byte) × ℤ) :
    Warned crc (frames ++ [frame]) (hear crc motors frame) := by
  intro index
  rw [App.hear, receive_apply board.distinct (List.mem_finRange index),
    UnitreeMotor.lastError_concat, UnitreeMotor.errorIn?, heard, board.id]
  by_cases positive : 0 < frame.2
  · by_cases accepted : UnitreeMotor.Accepts crc (.ofNat 8 index.val) frame.1
    · rw [if_pos positive, if_pos accepted, if_pos ⟨positive, accepted⟩]
      exact UnitreeMotor.err_decoded _ frame.1
    · rw [if_pos positive, if_neg accepted, if_neg fun taken =>
        accepted taken.2]
      exact warned index
  · rw [if_neg positive, if_neg fun taken => positive taken.1]
    exact warned index

/-- However `devInit` and the port are interleaved, `devInit` drives only the
joints until it parks the robot: then each motor in turn is told to rest, and
when it returns that is the last that each of the six has been told. -/
theorem devInit_parks (config : AokeeConfig) (crc : List Byte → BitVec 16)
    (memory : Fin 6 → Dev.Data Command) (dir : Fin 6 → ℤ)
    (pidRetract : Fin 4 → Pid) (earlier : List ((ℕ → Byte) × ℤ))
    (events : List InitEvent) :
    let start := beforeInit crc memory dir pidRetract earlier
    Parking ((devInit config crc).outputs start events)
      ((devInit config crc).exec start events).point :=
  (exec_parking config (board_beforeInit memory pidRetract earlier) rfl
    events).2

end DevInit

end RoboBand.App
