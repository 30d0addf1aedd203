import RoboBand.Io.IoKey

namespace RoboBand.Io

open RoboBand.Data Packed

/-! Where `Socket::send` sends to, against where `Socket::read` says that a
datagram comes from. -/

theorem ntohs_ntohs (port : BitVec 16) : ntohs (ntohs port) = port := by
  have high : byteAt 1 (ntohs port) = byteAt 0 port :=
    BitVec.extractLsb'_append_eq_left
  have low : byteAt 0 (ntohs port) = byteAt 1 port :=
    BitVec.extractLsb'_append_eq_right
  rw [ntohs, high, low, byteAt_append]

/-- The argument of `::htons` is the `int` cut to its low bits. -/
def htons (port : ℤ) : BitVec 16 := ntohs (BitVec.ofInt 16 port)

structure SocketSend where
  toAddr : SockAddr
  bytes : List Byte
  ret : Bool

/-- `sent` is what `::sendto` returns. -/
def Socket.send (_socket : Socket) (key : BitVec 32 × ℤ) (message : ℕ → Byte)
    (len : ℕ) (sent : ℤ) : SocketSend where
  toAddr := ⟨key.1, htons key.2⟩
  bytes := (List.range len).map message
  ret := !decide (sent < 0)

section Ports

def IsPort (port : ℤ) : Prop := 0 ≤ port ∧ port < 65536

theorem isPort_ntohs (port : BitVec 16) : IsPort (ntohs port).toNat := by
  have below := (ntohs port).isLt
  constructor <;> omega

theorem htons_ntohs (port : BitVec 16) : htons (ntohs port).toNat = port := by
  rw [htons, BitVec.ofInt_natCast, BitVec.ofNat_toNat, BitVec.setWidth_eq,
    ntohs_ntohs]

theorem ntohs_htons {port : ℤ} (inside : IsPort port) :
    ((ntohs (htons port)).toNat : ℤ) = port := by
  obtain ⟨nonneg, below⟩ := inside
  rw [htons, ntohs_ntohs]
  obtain ⟨number, rfl⟩ := Int.eq_ofNat_of_zero_le nonneg
  rw [BitVec.ofInt_natCast, BitVec.toNat_ofNat]
  omega

end Ports

namespace Socket

/-- What a call of `read` gives: its key and as many bytes as it says, where
there are any. -/
def gives? (call : SocketRead) : Option ((BitVec 32 × ℤ) × List Byte) :=
  if 0 < call.ret then some (call.key, IoKey.given call.data call.ret)
  else none

variable (socket : Socket)

theorem gives?_datagram (key : BitVec 32 × ℤ) (data : ℕ → Byte)
    (cliAddr : SockAddr) {bytes : List Byte} (nonempty : bytes ≠ []) :
    gives? (socket.read key data (.datagram cliAddr bytes)) =
      some ((cliAddr.sinAddr, ((ntohs cliAddr.sinPort).toNat : ℤ)),
        bytes.take requested) := by
  have positive : 0 < (recvfrom requested bytes).bytes.length := by
    rw [recvfrom_length]
    exact lt_min (by decide) (List.length_pos_of_ne_nil nonempty)
  have agrees : ∀ index : ℕ,
      (index : ℤ) < (recvfrom requested bytes).bytes.length →
      (recvfrom requested bytes).put data index =
        (bytes.take requested).getD index 0 := by
    intro index inside
    have touched : (recvfrom requested bytes).Touches index :=
      ⟨Nat.zero_le _, (Int.ofNat_lt.mp inside).trans_eq (Nat.zero_add _).symm⟩
    rw [Write.put, if_pos touched]
    rfl
  have gives : gives? (socket.read key data (.datagram cliAddr bytes)) =
      some ((socket.read key data (.datagram cliAddr bytes)).key,
        IoKey.given ((recvfrom requested bytes).put data)
          (recvfrom requested bytes).bytes.length) :=
    if_pos (Int.natCast_pos.mpr positive)
  rw [gives, read, if_pos positive]
  exact congrArg (fun bytes => some (_, bytes)) (IoKey.given_eq agrees)

theorem gives?_quiet (key : BitVec 32 × ℤ) (data : ℕ → Byte)
    (cliAddr : SockAddr) :
    gives? (socket.read key data (.datagram cliAddr [])) = none :=
  if_neg (lt_irrefl (0 : ℤ))

theorem gives?_failed (key : BitVec 32 × ℤ) (data : ℕ → Byte) :
    gives? (socket.read key data .failed) = none :=
  if_neg (by decide : ¬ (0 : ℤ) < -1)

/-- A call of `read` gives bytes with some key just when they come from the
address that this key is sent to; with a number that is no port it never
does. -/
theorem read_gives_iff (unset : BitVec 32 × ℤ) (data : ℕ → Byte)
    (key : BitVec 32 × ℤ) (message : ℕ → Byte) (len : ℕ) (sent : ℤ)
    (reception : Reception) (received : List Byte) :
    gives? (socket.read unset data reception) = some (key, received) ↔
      IsPort key.2 ∧ ∃ bytes, bytes ≠ [] ∧ received = bytes.take requested ∧
        reception =
          .datagram (socket.send key message len sent).toAddr bytes := by
  constructor
  · intro gives
    cases reception with
    | failed =>
        rw [gives?_failed] at gives
        cases gives
    | datagram cliAddr bytes =>
        by_cases empty : bytes = []
        · rw [empty, gives?_quiet] at gives
          cases gives
        · rw [gives?_datagram socket unset data cliAddr empty] at gives
          obtain ⟨rfl, rfl⟩ := Prod.mk.inj (Option.some.inj gives)
          refine ⟨isPort_ntohs _, bytes, empty, rfl, ?_⟩
          rw [send, htons_ntohs]
  · rintro ⟨isPort, bytes, nonempty, rfl, rfl⟩
    rw [gives?_datagram socket unset data _ nonempty, send,
      ntohs_htons isPort]

end Socket

end RoboBand.Io
