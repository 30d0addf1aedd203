import RoboBand.Data.CrcErrors
import RoboBand.Dev.UnitreeCalibration

namespace RoboBand.Dev.UnitreeMotor

open RoboBand.Data Packed

/-! Frames that arrive with some bits flipped.  Bit `8 * k + j` of an error is
bit `j` of byte `k`. -/

def flips (error : BitVec 128) : Finset ℕ :=
  {index ∈ Finset.range 128 | error.getLsbD index}

def corrupt (data : ℕ → Byte) (error : BitVec 128) (index : ℕ) : Byte :=
  data index ^^^ byteAt index error

theorem bitsOf_error (error : BitVec 128) :
    bitsOf (byteAt · error) 16 = flips error := by
  refine Finset.filter_congr fun index _ => ?_
  have place : 8 * (index / 8) + index % 8 = index := Nat.div_add_mod index 8
  have below : index % 8 < 8 := Nat.mod_lt index (by decide)
  change (byteAt (index / 8) error).getLsbD (index % 8) = true ↔
    error.getLsbD index = true
  rw [byteAt, BitVec.getLsbD_extractLsb', place, decide_eq_true below,
    Bool.true_and]

theorem word16_corrupt (data : ℕ → Byte) (error : BitVec 128) (offset : ℕ) :
    word16 (corrupt data error) offset =
      word16 data offset ^^^ word16 (byteAt · error) offset :=
  BitVec.xor_append.symm

/-- Two frames with a good CRC differ by an error that is a frame with a good
CRC itself. -/
theorem error_of_accepts {id : Byte} {data : ℕ → Byte} {error : BitVec 128}
    (accepted : Accepts kermit id data)
    (again : Accepts kermit id (corrupt data error)) :
    word16 (byteAt · error) 14 =
      kermit ((List.range 14).map (byteAt · error)) := by
  have before : word16 data 14 = kermit ((List.range 14).map data) :=
    accepted.intact
  have after : word16 (corrupt data error) 14 =
      kermit ((List.range 14).map (corrupt data error)) := again.intact
  have body : kermit ((List.range 14).map (corrupt data error)) =
      kermit ((List.range 14).map data) ^^^
        kermit ((List.range 14).map (byteAt · error)) := kermit_xor _ _ 14
  rw [word16_corrupt, body, before] at after
  exact (BitVec.xor_right_inj _).mp after

theorem not_accepts_corrupt {id : Byte} {data : ℕ → Byte} {error : BitVec 128}
    (accepted : Accepts kermit id data) (small : Detectable (flips error)) :
    ¬ Accepts kermit id (corrupt data error) := fun again =>
  kermit_detects ((bitsOf_error error).symm ▸ small)
    (kermit_closed (error_of_accepts accepted again))

theorem unpack_detects_corruption (motor : UnitreeMotor) (data : ℕ → Byte)
    (len : ℤ) (error : BitVec 128)
    (taken : (motor.unpack kermit data len).2 = true)
    (small : Detectable (flips error)) :
    motor.unpack kermit (corrupt data error) len = (motor, false) :=
  unpack_of_rejects
    (not_accepts_corrupt (accepts_of_unpack taken) small) len

theorem unpack_detects_flipped_head :
    (new blankCommand 2 1).unpack kermit (corrupt zeroFeedback 1) 16 =
      (new blankCommand 2 1, false) :=
  unpack_detects_corruption (new blankCommand 2 1) zeroFeedback 16 1
    (congrArg Prod.snd (unpack_of_accepts zeroFeedback_accepted 16))
    (.odd (by decide +kernel))

end RoboBand.Dev.UnitreeMotor
