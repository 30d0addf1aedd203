import RoboBand.Data.Crc
import RoboBand.Dev.UnitreeCalibration
import RoboBand.Io.Serial

namespace RoboBand.Dev.UnitreeMotor

open RoboBand.Data Packed RoboBand.Io

/-! What `unpack` makes of a buffer of which only the first `len` bytes have
been read. -/

def Agree (len : ℤ) (data other : ℕ → Byte) : Prop :=
  ∀ index : ℕ, index < len → other index = data index

/-- A whole frame at least, and nothing taken from behind it. -/
structure ReadsWithin (crc : List Byte → BitVec 16) (motor : UnitreeMotor)
    (data : ℕ → Byte) (len : ℤ) : Prop where
  whole : (motor.unpack crc data len).2 = true → 16 ≤ len
  inside : ∀ other, Agree len data other →
    motor.unpack crc other len = motor.unpack crc data len

/-- Nothing in the first `len` bytes speaks against a frame for the motor. -/
structure Promising (crc : List Byte → BitVec 16) (id : Byte) (data : ℕ → Byte)
    (len : ℤ) : Prop where
  nibble : (id.setWidth 4).setWidth 8 = id
  head0 : 0 < len → data 0 = resvHead.1
  head1 : 1 < len → data 1 = resvHead.2
  own : 2 < len → (Info.ofByte (data 2)).id.setWidth 8 = id
  crcLow : 14 < len → data 14 = byteAt 0 (crc ((List.range 14).map data))

variable {crc : List Byte → BitVec 16} {motor : UnitreeMotor} {id : Byte}
  {data other : ℕ → Byte} {len : ℤ}

theorem body_congr (same : ∀ index < 14, other index = data index) :
    (List.range 14).map other = (List.range 14).map data :=
  List.map_congr_left fun index member => same index (List.mem_range.mp member)

theorem readFeedback_congr (same : ∀ index < 16, other index = data index) :
    Data.readFeedback other = Data.readFeedback data := by
  simp only [Data.readFeedback, Data.read, Feedback.read, word16, word32]
  simp only [same, Nat.reduceAdd, Nat.reduceLT]

theorem unpack_congr (same : ∀ index < 16, other index = data index) :
    motor.unpack crc other len = motor.unpack crc data len := by
  have body : (List.range 14).map other = (List.range 14).map data :=
    body_congr fun index inside => same index (inside.trans (by decide))
  unfold unpack
  rw [readFeedback_congr same, body]

/-- A frame that is accepted in the end looked promising at every length. -/
theorem Accepts.promising (accepted : Accepts crc id other)
    (agree : Agree len data other) :
    Promising crc id data len where
  nibble := by
    rw [← accepted.own]
    simp
  head0 := fun reached => (agree 0 reached).symm.trans accepted.head0
  head1 := fun reached => (agree 1 reached).symm.trans accepted.head1
  own := fun reached => by
    rw [← agree 2 reached]
    exact accepted.own
  crcLow := fun reached => by
    have body : (List.range 14).map other = (List.range 14).map data :=
      body_congr fun index inside => agree index (by omega)
    rw [← agree 14 reached, ← body, ← accepted.intact]
    exact BitVec.extractLsb'_append_eq_right.symm

/-! What a sender could still put behind the bytes that were read. -/

def framed (id : Byte) (data : ℕ → Byte) (len : ℤ) (index : ℕ) : Byte :=
  if index < len then data index
  else match index with
    | 0 => resvHead.1
    | 1 => resvHead.2
    | 2 => id
    | _ => 0

def completed (crc : List Byte → BitVec 16) (id : Byte) (data : ℕ → Byte)
    (len : ℤ) (index : ℕ) : Byte :=
  let check := crc ((List.range 14).map (framed id data len))
  match index with
  | 14 => byteAt 0 check
  | 15 => byteAt 1 check
  | _ => framed id data len index

theorem completed_body :
    (List.range 14).map (completed crc id data len) =
      (List.range 14).map (framed id data len) := rfl

theorem framed_inside {index : ℕ} (inside : index < len) :
    framed id data len index = data index := if_pos inside

theorem completed_inside {index : ℕ} (below : index < 14)
    (inside : index < len) :
    completed crc id data len index = data index := by
  have same : completed crc id data len index = framed id data len index := by
    unfold completed
    split
    · omega
    · omega
    · rfl
  exact same.trans (framed_inside inside)

theorem Promising.agree (promising : Promising crc id data len)
    (short : len < 16) : Agree len data (completed crc id data len) := by
  intro index inside
  by_cases below : index < 14
  · exact completed_inside below inside
  · obtain rfl : index = 14 := by omega
    have body : (List.range 14).map (framed id data len) =
        (List.range 14).map data :=
      body_congr fun position before => framed_inside (by omega)
    rw [promising.crcLow inside, ← body]
    rfl

theorem Promising.accepts (promising : Promising crc id data len) :
    Accepts crc id (completed crc id data len) where
  head0 := by
    change framed id data len 0 = resvHead.1
    unfold framed
    split
    · exact promising.head0 ‹_›
    · rfl
  head1 := by
    change framed id data len 1 = resvHead.2
    unfold framed
    split
    · exact promising.head1 ‹_›
    · rfl
  own := by
    change (Info.ofByte (framed id data len 2)).id.setWidth 8 = id
    unfold framed
    split
    · exact promising.own ‹_›
    · exact promising.nibble
  intact := by
    rw [completed_body]
    exact byteAt_append _

theorem readsWithin_of_whole (long : 16 ≤ len) :
    ReadsWithin crc motor data len where
  whole := fun _ => long
  inside := fun other agree =>
    unpack_congr fun index below => agree index (by omega)

theorem readsWithin_of_not_promising
    (ruledOut : ¬ Promising crc motor.id data len) :
    ReadsWithin crc motor data len := by
  have rejected : ∀ other, Agree len data other →
      motor.unpack crc other len = (motor, false) := fun other agree =>
    unpack_of_rejects (fun accepted => ruledOut (accepted.promising agree)) len
  have itself : motor.unpack crc data len = (motor, false) :=
    rejected data fun _ _ => rfl
  refine ⟨fun taken => ?_, fun other agree => ?_⟩
  · rw [itself] at taken
    exact absurd taken Bool.false_ne_true
  · exact (rejected other agree).trans itself.symm

/-- `len` is ignored, so a short read stays within its bytes exactly when these
already rule a frame out. -/
theorem unpack_readsWithin_iff (crc : List Byte → BitVec 16)
    (motor : UnitreeMotor) (data : ℕ → Byte) (len : ℤ) :
    ReadsWithin crc motor data len ↔
      16 ≤ len ∨ ¬ Promising crc motor.id data len := by
  constructor
  · intro within
    by_contra fails
    obtain ⟨short, promising⟩ := not_or.mp fails
    have accepted := (not_not.mp promising).accepts
    have agree := (not_not.mp promising).agree (Int.not_le.mp short)
    have taken := congrArg Prod.snd
      ((within.inside _ agree).symm.trans (unpack_of_accepts accepted len))
    exact short (within.whole taken)
  · rintro (long | ruledOut)
    · exact readsWithin_of_whole long
    · exact readsWithin_of_not_promising ruledOut

/-- The port of the motors, with the head of their answers. -/
def motorPort : Serial :=
  (Serial.new 16).addRxHeadTail [resvHead.1, resvHead.2] []

/-- The start of a frame whose other bytes are all zero, the CRC included. -/
def tornRead : Received :=
  ⟨5, [0xfd, 0xee, 0x12, 0x51, 0x33, 0, 0, 0, 0, 0, 0, 0, 0, 0, 0, 0]⟩

theorem unpack_takes_short_read :
    motorPort.reader.outputs motorPort.start
        [.bytes [0xfd, 0xee, 0x12, 0x51, 0x33], .empty false] = [tornRead] ∧
      ((new blankCommand 2 1).unpack kermit (tornRead.data.getD · 0)
        tornRead.ret).2 = true ∧
      ¬ ReadsWithin kermit (new blankCommand 2 1) (tornRead.data.getD · 0)
        tornRead.ret := by
  have accepted : Accepts kermit 2 (tornRead.data.getD · 0) := by
    decide +kernel
  have taken : ((new blankCommand 2 1).unpack kermit (tornRead.data.getD · 0)
      tornRead.ret).2 = true :=
    congrArg Prod.snd (unpack_of_accepts accepted tornRead.ret)
  refine ⟨by decide +kernel, taken, fun within => ?_⟩
  exact absurd (within.whole taken) (by decide)

end RoboBand.Dev.UnitreeMotor
