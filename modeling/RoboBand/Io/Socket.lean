import RoboBand.Data.Machine
import RoboBand.Data.Packed

namespace RoboBand.Io

open RoboBand.Data Packed

/-- A block of bytes stored in a buffer from an offset on. -/
structure Write where
  offset : ℕ
  bytes : List Byte

/-- What a call of `read` does to the buffer it was given, and what it
returns. -/
inductive Access where
  | write (write : Write)
  | ret (ret : ℤ)

def Write.Touches (write : Write) (index : ℕ) : Prop :=
  write.offset ≤ index ∧ index < write.offset + write.bytes.length

instance (write : Write) (index : ℕ) : Decidable (write.Touches index) :=
  inferInstanceAs (Decidable (_ ∧ _))

def Write.put (write : Write) (data : ℕ → Byte) (index : ℕ) : Byte :=
  if write.Touches index then write.bytes.getD (index - write.offset) 0
  else data index

def Access.Inside (bufferSize : ℕ) : Access → Prop
  | .write block => ∀ index, block.Touches index → index < bufferSize
  | .ret len => len ≤ bufferSize

/-- The address and the port of a `sockaddr_in`, in network byte order. -/
structure SockAddr where
  sinAddr : BitVec 32
  sinPort : BitVec 16

/-- What `::recvfrom` meets: a datagram, or an error such as a timeout. -/
inductive Reception where
  | datagram (cliAddr : SockAddr) (bytes : List Byte)
  | failed

def Reception.size : Reception → ℕ
  | .datagram _ bytes => bytes.length
  | .failed => 0

structure Socket where
  bufferSize : ℕ

structure SocketRead where
  key : BitVec 32 × ℤ
  data : ℕ → Byte
  ret : ℤ

def ntohs (port : BitVec 16) : BitVec 16 := byteAt 0 port ++ byteAt 1 port

/-- `::recvfrom` drops what does not fit the length it is given. -/
def recvfrom (length : ℕ) (datagram : List Byte) : Write :=
  ⟨0, datagram.take length⟩

namespace Socket

/-- The length that `::recvfrom` is given, whatever `buffer_size` is. -/
def requested : ℕ := 256

/-- `data` is the memory from the pointer on. -/
def read (_socket : Socket) (key : BitVec 32 × ℤ) (data : ℕ → Byte) :
    Reception → SocketRead
  | .datagram cliAddr bytes =>
      let received := recvfrom requested bytes
      let len := received.bytes.length
      { key :=
          if 0 < len then (cliAddr.sinAddr, (ntohs cliAddr.sinPort).toNat)
          else key
        data := received.put data
        ret := len }
  | .failed => ⟨key, data, -1⟩

def writes : Reception → List Write
  | .datagram _ bytes => [recvfrom requested bytes]
  | .failed => []

theorem read_data (socket : Socket) (key : BitVec 32 × ℤ) (data : ℕ → Byte)
    (reception : Reception) :
    (socket.read key data reception).data =
      (writes reception).foldl (fun memory write => write.put memory) data := by
  cases reception with
  | datagram cliAddr bytes => rfl
  | failed => rfl

/-- The calls that `IoKey::thread_func` makes, each with a new key. -/
def reader (socket : Socket) : Machine (ℕ → Byte) Reception Access where
  step data reception :=
    let call := socket.read (0, 0) data reception
    (call.data, (writes reception).map .write ++ [.ret call.ret])

theorem recvfrom_length (length : ℕ) (bytes : List Byte) :
    (recvfrom length bytes).bytes.length = min length bytes.length :=
  List.length_take

theorem step_inside_iff (socket : Socket) (data : ℕ → Byte)
    (reception : Reception) :
    (∀ access ∈ (socket.reader.step data reception).2,
        access.Inside socket.bufferSize) ↔
      min requested reception.size ≤ socket.bufferSize := by
  cases reception with
  | failed =>
      refine ⟨fun _ => Nat.zero_le _, fun _ access member => ?_⟩
      obtain rfl := List.mem_singleton.mp member
      exact (by decide : (-1 : ℤ) ≤ 0).trans (Int.natCast_nonneg _)
  | datagram cliAddr bytes =>
      have stored := recvfrom_length requested bytes
      constructor
      · intro inside
        have returned := inside (.ret (recvfrom requested bytes).bytes.length)
          (by simp [reader, read, writes])
        rw [Access.Inside, stored] at returned
        exact Int.ofNat_le.mp returned
      · intro fits access member
        obtain rfl | last := List.mem_cons.mp member
        · intro index touched
          have below := touched.2
          rw [stored] at below
          exact (below.trans_le (Nat.zero_add _).le).trans_le fits
        · obtain rfl := List.mem_singleton.mp last
          rw [read, Access.Inside, stored]
          exact Int.ofNat_le.mpr fits

/-- Whether a datagram fits the buffer is left to whoever sends it. -/
theorem outputs_inside_iff (socket : Socket) (data : ℕ → Byte)
    (receptions : List Reception) :
    (∀ access ∈ socket.reader.outputs data receptions,
        access.Inside socket.bufferSize) ↔
      ∀ reception ∈ receptions,
        min requested reception.size ≤ socket.bufferSize := by
  induction receptions generalizing data with
  | nil => simp
  | cons reception rest ih =>
      rw [Machine.outputs_cons, List.forall_mem_append, step_inside_iff, ih,
        List.forall_mem_cons]

end Socket

end RoboBand.Io
