import RoboBand.Io.SerialWindow
import RoboBand.Io.Socket

namespace RoboBand.Io

open RoboBand.Data

namespace Serial

/-! The blocks that a turn of `Serial::read` stores: what `::read` delivers, and
what `memmove` moves to the front. -/

def searchWrites (rx : List Byte) :
    List (List Byte × List Byte) → List Byte → Nat → List Write
  | [], _, _ => []
  | (head, _) :: rest, data, readLen =>
      if readLen < head.length then []
      else
        match find? head rx with
        | none => searchWrites rx rest data 0
        | some pos =>
            let readLen := readLen - pos
            if pos ≠ 0 then [⟨0, (data.drop pos).take readLen⟩] else []

def writes (serial : Serial) (state : ReadState) (chunk : List Byte) :
    List Write :=
  let data := store state.data state.readLen chunk
  let readLen := state.readLen + chunk.length
  ⟨state.readLen, chunk⟩ ::
    searchWrites (data.take readLen) serial.headTails.entries data readLen

def storeAll (data : List Byte) (blocks : List Write) : List Byte :=
  blocks.foldl (fun data block => store data block.offset block.bytes) data

theorem memmove_eq_store {data : List Byte} {pos len : Nat}
    (inside : pos + len ≤ data.length) :
    memmove data pos len = store data 0 ((data.drop pos).take len) := by
  have moved : ((data.drop pos).take len).length = len := by
    rw [List.length_take, List.length_drop]
    omega
  rw [store, moved, List.take_zero, List.nil_append, Nat.zero_add, memmove]

theorem searchHeads_eq_storeAll {rx data : List Byte} {readLen : Nat}
    (taken : rx.length ≤ data.length) (room : readLen ≤ data.length)
    (heads : List (List Byte × List Byte)) :
    (searchHeads rx heads data readLen).1 =
      storeAll data (searchWrites rx heads data readLen) := by
  induction heads generalizing readLen with
  | nil => rfl
  | cons entry rest ih =>
      simp only [searchHeads, searchWrites]
      split
      · rfl
      · cases found : find? entry.1 rx with
        | none => exact ih (Nat.zero_le _)
        | some pos =>
            have position : pos ≤ rx.length :=
              (find?_eq_some_iff.mp found).position_le
            simp only
            split
            · exact memmove_eq_store (by omega)
            · rfl

theorem searchWrites_below {rx data : List Byte} {readLen size : Nat}
    (room : readLen ≤ size) (heads : List (List Byte × List Byte)) :
    ∀ block ∈ searchWrites rx heads data readLen,
      block.offset + block.bytes.length ≤ size := by
  induction heads generalizing readLen with
  | nil => exact fun _ member => nomatch member
  | cons entry rest ih =>
      simp only [searchWrites]
      split
      · exact fun _ member => nomatch member
      · cases find? entry.1 rx with
        | none => exact ih (Nat.zero_le _)
        | some pos =>
            simp only
            split
            · intro block member
              obtain rfl := List.mem_singleton.mp member
              simp only [List.length_take]
              omega
            · exact fun _ member => nomatch member

/-- The blocks are all that the array changes by. -/
theorem onBytes_eq_storeAll {serial : Serial} {state : ReadState}
    {chunk : List Byte}
    (room : state.readLen + chunk.length ≤ state.data.length) :
    (serial.onBytes state chunk).data =
      storeAll state.data (serial.writes state chunk) := by
  have fits := room.trans (store_length room).ge
  exact searchHeads_eq_storeAll ((List.length_take_le _ _).trans fits) fits _

/-- `Serial::read` with everything it stores beside what it returns. -/
def accessing (serial : Serial) : Machine ReadState PortEvent Access where
  step state event :=
    let stored := match event with
      | .bytes chunk => serial.writes state chunk
      | _ => []
    let turn := serial.reader.step state event
    (turn.1, stored.map .write ++ turn.2.map (.ret ·.ret))

theorem writes_below {serial : Serial} {state : ReadState}
    {chunk : List Byte}
    (room : state.readLen + chunk.length ≤ serial.bufferSize) :
    ∀ block ∈ serial.writes state chunk,
      block.offset + block.bytes.length ≤ serial.bufferSize := by
  intro block member
  obtain rfl | moved := List.mem_cons.mp member
  · exact room
  · exact searchWrites_below room _ block moved

theorem Holding.readLen_le {bufferSize : ℕ} {state : ReadState}
    (holding : Holding bufferSize state) : state.readLen ≤ bufferSize := by
  obtain ⟨window, holds⟩ := holding
  exact holds.length.le.trans holds.length_le

theorem Holding.room {serial : Serial} {state : ReadState}
    {chunk : List Byte} (holding : Holding serial.bufferSize state)
    (allowed : serial.PortAllowed state (.bytes chunk)) :
    state.readLen + chunk.length ≤ serial.bufferSize := by
  have delivered := allowed.2
  have inside := holding.readLen_le
  omega

theorem reader_step_ret_le {serial : Serial} {state : ReadState}
    {event : PortEvent} (holding : Holding serial.bufferSize state)
    (allowed : serial.PortAllowed state event) :
    ∀ received ∈ (serial.reader.step state event).2,
      received.ret ≤ serial.bufferSize := by
  have timeout : (state.readLen : ℤ) ≤ serial.bufferSize :=
    Int.ofNat_le.mpr holding.readLen_le
  intro received member
  cases event with
  | bytes chunk =>
      have room := holding.room allowed
      obtain ⟨window, holds⟩ := holding
      rw [holds.length] at room
      rw [(reader_step_bytes holds room).2] at member
      obtain ⟨full, _, rfl⟩ := List.mem_map.mp member
      exact le_rfl
  | empty pollIn =>
      cases pollIn with
      | false =>
          obtain rfl := List.mem_singleton.mp member
          exact timeout
      | true =>
          obtain room | full := Nat.lt_or_ge state.readLen serial.bufferSize
          · rw [reader_step_empty room] at member
            exact nomatch member
          · simp only [reader, readTurn, loopBody, loopTest, if_true,
              if_neg (Nat.not_lt.mpr full), List.mem_singleton] at member
            rw [member]
            exact timeout
  | failed ret =>
      obtain rfl := List.mem_singleton.mp member
      exact allowed.le.trans (Int.natCast_nonneg _)

theorem accessing_step_inside {serial : Serial} {state : ReadState}
    {event : PortEvent} (holding : Holding serial.bufferSize state)
    (allowed : serial.PortAllowed state event) :
    ∀ access ∈ (serial.accessing.step state event).2,
      access.Inside serial.bufferSize := by
  intro access member
  obtain stored | returned := List.mem_append.mp member
  · obtain ⟨block, among, rfl⟩ := List.mem_map.mp stored
    cases event with
    | bytes chunk =>
        have below := writes_below (holding.room allowed) block among
        exact fun index touched => touched.2.trans_le below
    | empty pollIn => exact nomatch among
    | failed ret => exact nomatch among
  · obtain ⟨received, among, rfl⟩ := List.mem_map.mp returned
    exact reader_step_ret_le holding allowed received among

theorem outputs_inside {serial : Serial} {state : ReadState}
    {events : List PortEvent} (holding : Holding serial.bufferSize state)
    (allowed : serial.accessing.Admits serial.PortAllowed state events) :
    ∀ access ∈ serial.accessing.outputs state events,
      access.Inside serial.bufferSize := by
  exact Machine.forall_outputs_of_admits (fun _ _ => holding_step)
    (fun _ _ => accessing_step_inside) holding allowed

end Serial

/-- The serial port keeps inside its buffer whatever it is sent; the socket does
exactly when no datagram is larger than the buffer. -/
theorem reads_inside_iff (bufferSize : ℕ)
    (heads : OrderedMap (List Byte) (List Byte)) (events : List PortEvent)
    (allowed : (Serial.mk bufferSize heads).accessing.Admits
      (Serial.mk bufferSize heads).PortAllowed
      (Serial.mk bufferSize heads).start events)
    (data : ℕ → Byte) (receptions : List Reception) :
    ((∀ access ∈ (Serial.mk bufferSize heads).accessing.outputs
          (Serial.mk bufferSize heads).start events,
        access.Inside bufferSize) ∧
      ∀ access ∈ (Socket.mk bufferSize).reader.outputs data receptions,
        access.Inside bufferSize) ↔
      ∀ reception ∈ receptions,
        min Socket.requested reception.size ≤ bufferSize := by
  have port := Serial.outputs_inside
    ⟨[], Serial.holds_start (Serial.mk bufferSize heads)⟩ allowed
  rw [← Socket.outputs_inside_iff (Socket.mk bufferSize) data]
  exact and_iff_right port

/-- A peer answers the socket of the plot with one byte too many. -/
theorem socket_stores_behind_buffer :
    ¬ ∀ access ∈ (Socket.mk 100).reader.outputs (fun _ => 0)
        [.datagram ⟨0, 0⟩ (List.replicate 101 0)],
      access.Inside 100 := by
  rw [Socket.outputs_inside_iff]
  decide

theorem reads_inside_small_datagram :
    (∀ access ∈ (Serial.mk 100 .empty).accessing.outputs
          (Serial.mk 100 .empty).start [.bytes [1], .empty false],
        access.Inside 100) ∧
      ∀ access ∈ (Socket.mk 100).reader.outputs (fun _ => 0)
          [.datagram ⟨0, 0⟩ [1, 2, 3]],
        access.Inside 100 :=
  (reads_inside_iff 100 .empty [.bytes [1], .empty false]
    (by decide +kernel) (fun _ => 0) [.datagram ⟨0, 0⟩ [1, 2, 3]]).mpr
      (by decide)

end RoboBand.Io
