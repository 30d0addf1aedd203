import RoboBand.Data.Packed

namespace RoboBand.Data

/-! CRC-16/KERMIT: the polynomial 0x1021 reflected, started at 0, with no final
exclusive or. -/

def kermitShift (crc : BitVec 16) : BitVec 16 :=
  if crc.getLsbD 0 then (crc >>> 1) ^^^ 0x8408#16 else crc >>> 1

def kermitShifts : ℕ → BitVec 16 → BitVec 16
  | 0, crc => crc
  | count + 1, crc => kermitShifts count (kermitShift crc)

def kermit (bytes : List Byte) : BitVec 16 :=
  bytes.foldl (fun crc byte => kermitShifts 8 (crc ^^^ byte.setWidth 16)) 0

example : kermit [0x31, 0x32, 0x33, 0x34, 0x35, 0x36, 0x37, 0x38, 0x39] =
    0x2189#16 := by decide +kernel

end RoboBand.Data
