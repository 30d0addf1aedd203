import RoboBand.Data.Packed

namespace RoboBand.Dev

open RoboBand.Data Packed

/-! The packed structures of the motor's protocol.  A bit field fills its byte
from the low end; words are stored with the low byte first. -/

inductive Mode where
  | defalut
  | foc
  | encoderCalibrate

def Mode.bits : Mode → BitVec 3
  | .defalut => 0
  | .foc => 1
  | .encoderCalibrate => 2

inductive MotorError where
  | normal
  | overHeat
  | overCurrent
  | overVoltage
  | encoderFault
  | busUnderVoltage
  | windingOverHeat
  | reserved
  deriving DecidableEq

def MotorError.ofBits (bits : BitVec 3) : MotorError :=
  match bits.toNat with
  | 0 => .normal
  | 1 => .overHeat
  | 2 => .overCurrent
  | 3 => .overVoltage
  | 4 => .encoderFault
  | 5 => .busUnderVoltage
  | 6 => .windingOverHeat
  | _ => .reserved

structure Info where
  id : BitVec 4
  mode : BitVec 3
  reserved : BitVec 1
  deriving DecidableEq

structure Command where
  torqueSet : BitVec 16
  speedSet : BitVec 16
  angleSet : BitVec 32
  kPosSet : BitVec 16
  kSpdSet : BitVec 16
  deriving DecidableEq

structure Feedback where
  torqueFbk : BitVec 16
  speedFbk : BitVec 16
  angleFbk : BitVec 32
  tempFbk : BitVec 8
  err : BitVec 3
  forceFbk : BitVec 12
  reserved : BitVec 1
  deriving DecidableEq

structure Data (T : Type) where
  head0 : Byte
  head1 : Byte
  info : Info
  msg : T
  crc : BitVec 16
  deriving DecidableEq

def Info.toByte (info : Info) : Byte := info.reserved ++ info.mode ++ info.id

def Info.ofByte (byte : Byte) : Info where
  id := byte.extractLsb' 0 4
  mode := byte.extractLsb' 4 3
  reserved := byte.extractLsb' 7 1

@[simp] theorem Info.ofByte_toByte (info : Info) :
    ofByte info.toByte = info := by
  obtain ⟨id, mode, reserved⟩ := info
  simp only [toByte, ofByte, mk.injEq]
  refine ⟨BitVec.extractLsb'_append_eq_right, ?_, ?_⟩
  · exact (BitVec.extractLsb'_append_eq_of_le (by decide)).trans
      BitVec.extractLsb'_append_eq_right
  · exact (BitVec.extractLsb'_append_eq_of_le (by decide)).trans
      BitVec.extractLsb'_append_eq_left

def halfWord (word : BitVec 16) : List Byte := [byteAt 0 word, byteAt 1 word]

def fullWord (word : BitVec 32) : List Byte :=
  [byteAt 0 word, byteAt 1 word, byteAt 2 word, byteAt 3 word]

namespace Command

def toBytes (command : Command) : List Byte :=
  halfWord command.torqueSet ++ halfWord command.speedSet ++
    fullWord command.angleSet ++ halfWord command.kPosSet ++
    halfWord command.kSpdSet

def read (memory : ℕ → Byte) (offset : ℕ) : Command where
  torqueSet := word16 memory offset
  speedSet := word16 memory (offset + 2)
  angleSet := word32 memory (offset + 4)
  kPosSet := word16 memory (offset + 8)
  kSpdSet := word16 memory (offset + 10)

end Command

def Feedback.read (memory : ℕ → Byte) (offset : ℕ) : Feedback where
  torqueFbk := word16 memory offset
  speedFbk := word16 memory (offset + 2)
  angleFbk := word32 memory (offset + 4)
  tempFbk := memory (offset + 8)
  err := (word16 memory (offset + 9)).extractLsb' 0 3
  forceFbk := (word16 memory (offset + 9)).extractLsb' 3 12
  reserved := (word16 memory (offset + 9)).extractLsb' 15 1

namespace Data

def body (data : Data Command) : List Byte :=
  [data.head0, data.head1, data.info.toByte] ++ data.msg.toBytes

def toBytes (data : Data Command) : List Byte := data.body ++ halfWord data.crc

/-- A structure that lies in memory, its message of the given size. -/
def read (message : (ℕ → Byte) → ℕ → T) (size : ℕ) (memory : ℕ → Byte) :
    Data T where
  head0 := memory 0
  head1 := memory 1
  info := .ofByte (memory 2)
  msg := message memory 3
  crc := word16 memory (3 + size)

abbrev readCommand (memory : ℕ → Byte) : Data Command :=
  read Command.read 12 memory

abbrev readFeedback (memory : ℕ → Byte) : Data Feedback :=
  read Feedback.read 11 memory

/-- Whoever receives a command reads the structure that was sent. -/
theorem readCommand_toBytes (data : Data Command) :
    readCommand (data.toBytes.getD · 0) = data := by
  obtain ⟨head0, head1, info, ⟨torqueSet, speedSet, angleSet, kPosSet, kSpdSet⟩,
    crc⟩ := data
  change Data.mk _ _ _ (Command.mk _ _ _ _ _) _ =
    Data.mk _ _ _ (Command.mk _ _ _ _ _) _
  simp only [mk.injEq, Command.mk.injEq]
  exact ⟨rfl, rfl, info.ofByte_toByte, ⟨byteAt_append torqueSet,
    byteAt_append speedSet, byteAt_append_four angleSet, byteAt_append kPosSet,
    byteAt_append kSpdSet⟩, byteAt_append crc⟩

end Data

end RoboBand.Dev
