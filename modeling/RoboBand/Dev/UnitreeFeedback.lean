import RoboBand.Dev.UnitreeMotor

namespace RoboBand.Dev

open RoboBand.Data Packed

/-! The frames that a motor answers with.  They come from the motor, which is
not part of the program: a frame is what the packed structure that `unpack`
reads looks like in memory, closed with its checksum. -/

namespace Feedback

/-- The bit fields behind the temperature, from the low end: `err`,
`force_fbk`, `reserved`. -/
def flags (feedback : Feedback) : BitVec 16 :=
  feedback.reserved ++ feedback.forceFbk ++ feedback.err

def toBytes (feedback : Feedback) : List Byte :=
  halfWord feedback.torqueFbk ++ halfWord feedback.speedFbk ++
    fullWord feedback.angleFbk ++ [feedback.tempFbk] ++
    halfWord feedback.flags

theorem flags_fields (feedback : Feedback) :
    feedback.flags.extractLsb' 0 3 = feedback.err ∧
      feedback.flags.extractLsb' 3 12 = feedback.forceFbk ∧
      feedback.flags.extractLsb' 15 1 = feedback.reserved := by
  refine ⟨BitVec.extractLsb'_append_eq_right, ?_, ?_⟩
  · exact (BitVec.extractLsb'_append_eq_of_le (by decide)).trans
      BitVec.extractLsb'_append_eq_right
  · exact (BitVec.extractLsb'_append_eq_of_le (by decide)).trans
      BitVec.extractLsb'_append_eq_left

end Feedback

namespace Data

def feedbackBody (data : Data Feedback) : List Byte :=
  [data.head0, data.head1, data.info.toByte] ++ data.msg.toBytes

def feedbackBytes (data : Data Feedback) : List Byte :=
  data.feedbackBody ++ halfWord data.crc

theorem readFeedback_feedbackBytes (data : Data Feedback) :
    readFeedback (data.feedbackBytes.getD · 0) = data := by
  obtain ⟨head0, head1, info, msg, crc⟩ := data
  obtain ⟨err, force, reserved⟩ := msg.flags_fields
  obtain ⟨torqueFbk, speedFbk, angleFbk, tempFbk, _, _, _⟩ := msg
  change Data.mk _ _ _ (Feedback.mk _ _ _ _ _ _ _) _ =
    Data.mk _ _ _ (Feedback.mk _ _ _ _ _ _ _) _
  simp only [mk.injEq, Feedback.mk.injEq]
  refine ⟨rfl, rfl, info.ofByte_toByte, ⟨byteAt_append torqueFbk,
    byteAt_append speedFbk, byteAt_append_four angleFbk, rfl, ?_, ?_, ?_⟩,
    byteAt_append crc⟩
  · exact (congrArg _ (byteAt_append _)).trans err
  · exact (congrArg _ (byteAt_append _)).trans force
  · exact (congrArg _ (byteAt_append _)).trans reserved

end Data

/-- An answer: the motor that gives it, and what it reports. -/
structure Reply where
  info : Info
  msg : Feedback

namespace Reply

/-- The frame without its checksum. -/
def unsealed (reply : Reply) : Data Feedback where
  head0 := UnitreeMotor.resvHead.1
  head1 := UnitreeMotor.resvHead.2
  info := reply.info
  msg := reply.msg
  crc := 0

variable (crc : List Byte → BitVec 16)

def data (reply : Reply) : Data Feedback :=
  { reply.unsealed with crc := crc reply.unsealed.feedbackBody }

def frame (reply : Reply) : List Byte := (reply.data crc).feedbackBytes

theorem length_frame (reply : Reply) : (reply.frame crc).length = 16 := rfl

theorem head_isPrefix_frame (reply : Reply) :
    [UnitreeMotor.resvHead.1, UnitreeMotor.resvHead.2] <+:
      reply.frame crc :=
  List.prefix_append _ _

@[simp] theorem readFeedback_frame (reply : Reply) :
    Data.readFeedback ((reply.frame crc).getD · 0) = reply.data crc :=
  Data.readFeedback_feedbackBytes _

/-- A frame is accepted by the motor whose id it carries, and by no other. -/
theorem accepts_frame_iff (reply : Reply) (id : Byte) :
    UnitreeMotor.Accepts crc id ((reply.frame crc).getD · 0) ↔
      reply.info.id.setWidth 8 = id := by
  rw [UnitreeMotor.accepts_iff, readFeedback_frame]
  constructor
  · exact fun accepted => accepted.2.2.1
  · exact fun own => ⟨rfl, rfl, own, rfl⟩

end Reply

section Converse

theorem byteAt_word16 (memory : ℕ → Byte) (offset : ℕ) :
    halfWord (word16 memory offset) = [memory offset, memory (offset + 1)] := by
  have low : byteAt 0 (word16 memory offset) = memory offset :=
    BitVec.extractLsb'_append_eq_right
  have high : byteAt 1 (word16 memory offset) = memory (offset + 1) :=
    BitVec.extractLsb'_append_eq_left
  rw [halfWord, low, high]

theorem byteAt_word32 (memory : ℕ → Byte) (offset : ℕ) :
    fullWord (word32 memory offset) =
      [memory offset, memory (offset + 1), memory (offset + 2),
        memory (offset + 3)] := by
  have first : byteAt 0 (word32 memory offset) = memory offset :=
    BitVec.extractLsb'_append_eq_right
  have second : byteAt 1 (word32 memory offset) = memory (offset + 1) :=
    (BitVec.extractLsb'_append_eq_of_le (by decide)).trans
      BitVec.extractLsb'_append_eq_right
  have third : byteAt 2 (word32 memory offset) = memory (offset + 2) :=
    (BitVec.extractLsb'_append_eq_of_le (by decide)).trans
      ((BitVec.extractLsb'_append_eq_of_le (by decide)).trans
        BitVec.extractLsb'_append_eq_right)
  have fourth : byteAt 3 (word32 memory offset) = memory (offset + 3) :=
    (BitVec.extractLsb'_append_eq_of_le (by decide)).trans
      ((BitVec.extractLsb'_append_eq_of_le (by decide)).trans
        BitVec.extractLsb'_append_eq_left)
  rw [fullWord, first, second, third, fourth]

theorem Info.toByte_ofByte (byte : Byte) :
    (Info.ofByte byte).toByte = byte := by
  have upper : byte.extractLsb' 7 1 ++ byte.extractLsb' 4 3 =
      byte.extractLsb' 4 4 :=
    BitVec.extractLsb'_append_extractLsb'_eq_extractLsb' rfl
  rw [Info.toByte, Info.ofByte, upper]
  exact BitVec.extractLsb'_append_extractLsb'

theorem Feedback.flags_read (memory : ℕ → Byte) (offset : ℕ) :
    (Feedback.read memory offset).flags = word16 memory (offset + 9) := by
  have upper : (word16 memory (offset + 9)).extractLsb' 15 1 ++
      (word16 memory (offset + 9)).extractLsb' 3 12 =
        (word16 memory (offset + 9)).extractLsb' 3 13 :=
    BitVec.extractLsb'_append_extractLsb'_eq_extractLsb' rfl
  rw [Feedback.flags, Feedback.read, upper]
  exact BitVec.extractLsb'_append_extractLsb'

namespace Data

theorem feedbackBody_readFeedback (memory : ℕ → Byte) :
    (readFeedback memory).feedbackBody = (List.range 14).map memory := by
  change [memory 0, memory 1, (Info.ofByte (memory 2)).toByte] ++
    (halfWord (word16 memory 3) ++ halfWord (word16 memory 5) ++
      fullWord (word32 memory 7) ++ [memory 11] ++
      halfWord (Feedback.read memory 3).flags) = _
  rw [Info.toByte_ofByte, Feedback.flags_read]
  simp only [byteAt_word16, byteAt_word32]
  rfl

theorem feedbackBytes_readFeedback (memory : ℕ → Byte) :
    (readFeedback memory).feedbackBytes = (List.range 16).map memory := by
  rw [feedbackBytes, feedbackBody_readFeedback]
  change _ ++ halfWord (word16 memory 14) = _
  rw [byteAt_word16]
  rfl

end Data

/-- What a motor accepts is a frame with its id, and nothing else is. -/
theorem accepts_iff_exists_reply (crc : List Byte → BitVec 16) (id : Byte)
    (memory : ℕ → Byte) :
    UnitreeMotor.Accepts crc id memory ↔
      ∃ reply : Reply, reply.info.id.setWidth 8 = id ∧
        (List.range 16).map memory = reply.frame crc := by
  constructor
  · rintro ⟨head0, head1, own, intact⟩
    refine ⟨⟨(Data.readFeedback memory).info, (Data.readFeedback memory).msg⟩,
      own, ?_⟩
    have body := Data.feedbackBody_readFeedback memory
    rw [← Data.feedbackBytes_readFeedback, Data.feedbackBytes, intact, ← body,
      Data.feedbackBody, head0, head1]
    rfl
  · rintro ⟨reply, own, same⟩
    have read : Data.readFeedback memory = reply.data crc := by
      have bytes : (Data.readFeedback memory).feedbackBytes =
          (reply.data crc).feedbackBytes :=
        (Data.feedbackBytes_readFeedback memory).trans same
      have again := congrArg (fun bytes => Data.readFeedback (bytes.getD · 0))
        bytes
      simpa only [Data.readFeedback_feedbackBytes] using again
    have body : (List.range 14).map memory = reply.unsealed.feedbackBody := by
      rw [← Data.feedbackBody_readFeedback, read]
      rfl
    rw [UnitreeMotor.accepts_iff, read, body]
    exact ⟨rfl, rfl, own, rfl⟩

theorem Reply.frame_injective (crc : List Byte → BitVec 16) :
    Function.Injective (Reply.frame crc) := by
  intro first second same
  have read := congrArg (fun bytes => Data.readFeedback (bytes.getD · 0)) same
  simp only [Reply.readFeedback_frame] at read
  have info : first.info = second.info := congrArg Data.info read
  have msg : first.msg = second.msg := congrArg Data.msg read
  obtain ⟨_, _⟩ := first
  obtain ⟨_, _⟩ := second
  subst info msg
  rfl

theorem Reply.msg_of_frame {crc : List Byte → BitVec 16} {reply : Reply}
    {memory : ℕ → Byte}
    (same : (List.range 16).map memory = reply.frame crc) :
    (Data.readFeedback memory).msg = reply.msg := by
  rw [← Data.feedbackBytes_readFeedback] at same
  have read := congrArg (fun bytes => Data.readFeedback (bytes.getD · 0)) same
  simp only [Reply.readFeedback_frame, Data.readFeedback_feedbackBytes] at read
  exact congrArg Data.msg read

/-- `unpack` takes nothing but the frame of an answer that carries the motor's
id, and says of the motor what that answer reports. -/
theorem unpack_iff_frame (crc : List Byte → BitVec 16) (motor : UnitreeMotor)
    (memory : ℕ → Byte) (len : ℤ) :
    let unpacked := motor.unpack crc memory len
    let carries := fun reply : Reply =>
      reply.info.id.setWidth 8 = motor.id ∧
        (List.range 16).map memory = reply.frame crc
    (unpacked.2 = true ↔ ∃! reply, carries reply) ∧
      (∀ reply, carries reply → unpacked.1 = { motor with
        angle := UnitreeMotor.rawAngle motor.dir reply.msg.angleFbk -
          motor.angleOffset
        speed := UnitreeMotor.rawSpeed motor.dir reply.msg.speedFbk
        temp := reply.msg.tempFbk.toInt
        err := .ofBits reply.msg.err }) ∧
      ((∀ reply, ¬ carries reply) → unpacked.1 = motor) := by
  intro unpacked carries
  have accepted := accepts_iff_exists_reply crc motor.id memory
  refine ⟨⟨fun taken => ?_, ?_⟩, fun reply carried => ?_, fun none => ?_⟩
  · obtain ⟨reply, carried⟩ :=
      accepted.mp (UnitreeMotor.accepts_of_unpack taken)
    refine ⟨reply, carried, fun other otherCarried => ?_⟩
    exact Reply.frame_injective crc (otherCarried.2.symm.trans carried.2)
  · rintro ⟨reply, carried, _⟩
    have taken := accepted.mpr ⟨reply, carried⟩
    exact congrArg Prod.snd (UnitreeMotor.unpack_of_accepts taken len)
  · have taken := UnitreeMotor.unpack_of_accepts
      (accepted.mpr ⟨reply, carried⟩) len
    rw [← Reply.msg_of_frame carried.2]
    exact congrArg Prod.fst taken
  · have rejected : ¬ UnitreeMotor.Accepts crc motor.id memory :=
      fun taken => (accepted.mp taken).elim none
    exact congrArg Prod.fst (UnitreeMotor.unpack_of_rejects rejected len)

end Converse

end RoboBand.Dev
