import RoboBand.Data.Packed

namespace RoboBand.Io

open RoboBand.Data

variable {Devices : Type*}

def dispatch (data : ℕ → Byte) (len : ℤ) :
    List ((ℕ → Byte) → ℤ → Devices → Devices × Bool) → Devices →
      Devices × Bool
  | [], devices => (devices, false)
  | unpacker :: rest, devices =>
      let unpacked := unpacker data len devices
      if unpacked.2 then
        (unpacked.1, true)
      else
        dispatch data len rest unpacked.1

/-- What `IoNoKey::thread_func` does with what `read` returned. -/
def onRead (unpackers : List ((ℕ → Byte) → ℤ → Devices → Devices × Bool))
    (data : ℕ → Byte) (len : ℤ) (devices : Devices) : Devices :=
  if 0 < len then (dispatch data len unpackers devices).1 else devices

end RoboBand.Io
