import RoboBand.Data.OrderedMap
import RoboBand.Io.Socket
import Mathlib.Data.Int.Order.Basic
import Mathlib.Data.List.Nodup
import Mathlib.Data.Prod.Lex
import Mathlib.Logic.Function.Basic

namespace RoboBand.Io

open RoboBand.Data

/-! Devices told apart by a key: what their constructors register, and to whom
the thread hands what was read. -/

variable {Key Index State : Type*}

structure KeyedDevice (Key State : Type*) where
  name : String
  ioKey : Key
  unpack : (ℕ → Byte) → ℤ → State → State × Bool

/-- An unpacker is the device that it calls; `stream?` is there where keys can
be written to a stream. -/
structure IoKey (Key Index : Type*) [LinearOrder Key] where
  name : String
  stream? : Option (Key → String)
  unpackers : OrderedMap Key Index

namespace IoKey

section Attach

variable [LinearOrder Key]

def new (name : String) (stream? : Option (Key → String)) :
    IoKey Key Index where
  name := name
  stream? := stream?
  unpackers := .empty

/-- `unpackers.find(key)`. -/
def find (io : IoKey Key Index) (key : Key) : Option Index :=
  io.unpackers.entries.lookup key

def duplicateKey (io : IoKey Key Index) (device : KeyedDevice Key State) :
    String :=
  match io.stream? with
  | some stream =>
      "[Dev<" ++ device.name ++ ">] You used duplicate key \"" ++
        stream device.ioKey ++ "\" when binging to IO \"" ++ io.name ++ "\"!"
  | none =>
      "[Dev<" ++ device.name ++
        ">] You used duplicate key when binging to IO \"" ++ io.name ++ "\"!"

def unboundKey (io : IoKey Key Index) (key : Key) : String :=
  match io.stream? with
  | some stream =>
      "[IO<" ++ io.name ++ ">] Unbound key read: " ++ stream key ++ "."
  | none => "[IO<" ++ io.name ++ ">] Unbound key read."

/-- The constructors of the devices, one after the other; each error stands
beside the device that it is about. -/
def attaching (devices : Index → KeyedDevice Key State) :
    Machine (IoKey Key Index) Index (Index × String) where
  step io index :=
    match io.find (devices index).ioKey with
    | some _ => (io, [(index, io.duplicateKey (devices index))])
    | none =>
        ({ io with
            unpackers :=
              io.unpackers.insertOrAssign (devices index).ioKey index }, [])

variable (devices : Index → KeyedDevice Key State)

/-- The device that was constructed first with a key. -/
def owner? (order : List Index) (key : Key) : Option Index :=
  order.find? fun index => (devices index).ioKey = key

variable {devices}

theorem ioKey_of_owner? {order : List Index} {key : Key} {index : Index}
    (owner : owner? devices order key = some index) :
    (devices index).ioKey = key :=
  of_decide_eq_true (List.find?_eq_some_iff_append.mp owner).1

theorem owner?_cons (head : Index) (rest : List Index) (key : Key) :
    owner? devices (head :: rest) key =
      if (devices head).ioKey = key then some head
      else owner? devices rest key := by
  rw [owner?, List.find?_cons]
  by_cases own : (devices head).ioKey = key
  · rw [decide_eq_true own, if_pos own]
  · rw [decide_eq_false own, if_neg own]
    rfl

theorem lookup_attached (io : IoKey Key Index) (index : Index) (key : Key) :
    ((attaching devices).step io index).1.find key =
      (io.find key).or
        (if (devices index).ioKey = key then some index else none) := by
  cases held : io.find (devices index).ioKey with
  | some other =>
      simp only [attaching, held]
      split
      · rename_i own
        rw [← own, held, Option.some_or]
      · rw [Option.or_none]
  | none =>
      simp only [attaching, held]
      split
      · rename_i own
        subst own
        rw [held, Option.none_or]
        exact lookup_insertOrAssign_self _ _ _
      · rename_i foreign
        rw [Option.or_none]
        exact lookup_insertOrAssign_of_ne _ (Ne.symm foreign) _

/-- The first device with a key stays the one that is called. -/
theorem lookup_attaching (io : IoKey Key Index) (order : List Index)
    (key : Key) :
    ((attaching devices).exec io order).find key =
      (io.find key).or (owner? devices order key) := by
  induction order generalizing io with
  | nil => exact Option.or_none.symm
  | cons head rest ih =>
      rw [Machine.exec_cons, ih, lookup_attached, owner?_cons, Option.or_assoc]
      refine congrArg _ ?_
      split
      · exact Option.some_or
      · exact Option.none_or

theorem lookup_new (name : String) (stream? : Option (Key → String))
    (order : List Index) (key : Key) :
    ((attaching devices).exec (new name stream?) order).find key =
      owner? devices order key :=
  (lookup_attaching _ order key).trans Option.none_or

/-- The devices whose constructors find their key taken. -/
def refused (devices : Index → KeyedDevice Key State) (io : IoKey Key Index)
    (order : List Index) : List Index :=
  ((attaching devices).outputs io order).map Prod.fst

theorem refused_cons (io : IoKey Key Index) (head : Index)
    (rest : List Index) :
    refused devices io (head :: rest) =
      (if (io.find (devices head).ioKey).isSome then [head] else []) ++
        refused devices ((attaching devices).step io head).1 rest := by
  rw [refused, Machine.outputs_cons, List.map_append]
  refine congrArg (· ++ _) ?_
  cases held : io.find (devices head).ioKey with
  | some other =>
      simp only [attaching, held, Option.isSome_some, if_true, List.map_cons,
        List.map_nil]
  | none =>
      simp only [attaching, held, Option.isSome_none, List.map_nil,
        Bool.false_eq_true, if_false]

theorem mem_of_mem_refused {io : IoKey Key Index} {order : List Index}
    {index : Index} (member : index ∈ refused devices io order) :
    index ∈ order := by
  induction order generalizing io with
  | nil => exact member
  | cons head rest ih =>
      rw [refused_cons, List.mem_append] at member
      rcases member with here | later
      · split at here
        · exact List.mem_singleton.mp here ▸ List.mem_cons_self
        · exact absurd here List.not_mem_nil
      · exact List.mem_cons_of_mem head (ih later)

theorem mem_refused_iff {order : List Index} (nodup : order.Nodup)
    {index : Index} (member : index ∈ order) {io : IoKey Key Index}
    (fresh : io.find (devices index).ioKey ≠ some index) :
    index ∈ refused devices io order ↔
      (io.find (devices index).ioKey).or
        (owner? devices order (devices index).ioKey) ≠ some index := by
  induction order generalizing io with
  | nil => exact absurd member List.not_mem_nil
  | cons head rest ih =>
      obtain ⟨apart, restNodup⟩ := List.nodup_cons.mp nodup
      rw [refused_cons, List.mem_append, owner?_cons]
      rcases List.mem_cons.mp member with rfl | later
      · have once : index ∉ refused devices
            ((attaching devices).step io index).1 rest :=
          fun again => apart (mem_of_mem_refused again)
        rw [if_pos rfl, or_iff_left once]
        cases held : io.find (devices index).ioKey with
        | none => simp
        | some other => simpa using fun same => fresh (held.trans same)
      · have different : head ≠ index := fun same => apart (same ▸ later)
        have stillFresh : ((attaching devices).step io head).1.find
            (devices index).ioKey ≠ some index := by
          rw [lookup_attached]
          intro found
          rcases Option.or_eq_some_iff.mp found with before | ⟨_, now⟩
          · exact fresh before
          · split at now
            · exact different (Option.some.inj now)
            · cases now
        have elsewhere : index ∉
            (if (io.find (devices head).ioKey).isSome then [head]
              else []) := by
          split
          · exact fun here => different (List.mem_singleton.mp here).symm
          · exact List.not_mem_nil
        rw [or_iff_right elsewhere, ih restNodup later stillFresh,
          lookup_attached, Option.or_assoc]
        split
        · rw [Option.some_or]
        · rw [Option.none_or]

/-- A constructor reports an error exactly where its device is not the first
one with its key. -/
theorem mem_refused_new_iff (name : String) (stream? : Option (Key → String))
    {order : List Index} (nodup : order.Nodup) {index : Index}
    (member : index ∈ order) :
    index ∈ refused devices (new name stream?) order ↔
      owner? devices order (devices index).ioKey ≠ some index := by
  have fresh : (new name stream? : IoKey Key Index).find
      (devices index).ioKey ≠ some index := (Option.some_ne_none index).symm
  exact mem_refused_iff nodup member fresh

end Attach

section Thread

/-- `std::tuple<in_addr_t, int>` with the order of tuples. -/
abbrev SocketKey := Lex (ℕ × ℤ)

def socketKey (key : BitVec 32 × ℤ) : SocketKey := toLex (key.1.toNat, key.2)

/-- The call of an unpacker with the bytes that it is given, or a warning. -/
inductive Handling (Index : Type*) where
  | hands (index : Index) (bytes : List Byte)
  | warns (warning : String)

def Handling.isHands : Handling Index → Bool
  | .hands _ _ => true
  | .warns _ => false

def Handling.isWarning (handling : Handling Index) : Bool := !handling.isHands

def given (data : ℕ → Byte) (len : ℤ) : List Byte :=
  (List.range len.toNat).map data

variable [DecidableEq Index]

def Handling.to? (index : Index) : Handling Index → Option (List Byte)
  | .hands other bytes => if other = index then some bytes else none
  | .warns _ => none

/-- What `IoKey::thread_func` does with what `read` returned. -/
def onRead [LinearOrder Key] (io : IoKey Key Index)
    (devices : Index → KeyedDevice Key State) (key : Key) (data : ℕ → Byte)
    (len : ℤ) (states : Index → State) :
    (Index → State) × List (Handling Index) :=
  if 0 < len then
    match io.find key with
    | none => (states, [.warns (io.unboundKey key)])
    | some index =>
        let unpacked := (devices index).unpack data len (states index)
        (Function.update states index unpacked.1,
          [.hands index (given data len)])
  else
    (states, [])

/-- The thread of a socket; unlike that of an `IoNoKey`, it leaves in the
buffer what was there before. -/
def thread (socket : Socket) (io : IoKey SocketKey Index)
    (devices : Index → KeyedDevice SocketKey State) :
    Machine ((ℕ → Byte) × (Index → State)) Reception (Handling Index) where
  step both reception :=
    let call := socket.read (0, 0) both.1 reception
    let handed := io.onRead devices (socketKey call.key) call.data call.ret
      both.2
    ((call.data, handed.1), handed.2)

/-- The sender and the bytes of what is read, where something is. -/
def packet? : Reception → Option (SocketKey × List Byte)
  | .datagram cliAddr bytes =>
      let received := bytes.take Socket.requested
      if received = [] then none
      else
        some (socketKey (cliAddr.sinAddr, (ntohs cliAddr.sinPort).toNat),
          received)
  | .failed => none

def sentFrom? (key : SocketKey) (reception : Reception) :
    Option (List Byte) :=
  (packet? reception).bind fun packet =>
    if packet.1 = key then some packet.2 else none

/-- Only the bytes that were received matter to the device. -/
def ReadsReceived (device : KeyedDevice Key State) : Prop :=
  ∀ (data other : ℕ → Byte) (len : ℤ) (state : State),
    (∀ index : ℕ, index < len → data index = other index) →
    device.unpack data len state = device.unpack other len state

def hear (device : KeyedDevice Key State) (state : State)
    (bytes : List Byte) : State :=
  (device.unpack (bytes.getD · 0) bytes.length state).1

variable (socket : Socket) {io : IoKey SocketKey Index}
  {devices : Index → KeyedDevice SocketKey State}

omit [DecidableEq Index] in
theorem read_of_quiet {reception : Reception}
    (quiet : packet? reception = none) (data : ℕ → Byte) :
    ¬ 0 < (socket.read (0, 0) data reception).ret := by
  cases reception with
  | failed =>
      have negative : ¬ (0 : ℤ) < -1 := by decide
      exact negative
  | datagram cliAddr bytes =>
      rw [packet?] at quiet
      split at quiet
      · rename_i empty
        rw [Socket.read, recvfrom, empty]
        exact lt_irrefl (0 : ℤ)
      · cases quiet

theorem step_of_quiet {reception : Reception}
    (quiet : packet? reception = none)
    (both : (ℕ → Byte) × (Index → State)) :
    ((thread socket io devices).step both reception).1.2 = both.2 ∧
      ((thread socket io devices).step both reception).2 = [] := by
  have skipped : ∀ key data, io.onRead devices key data
      (socket.read (0, 0) both.1 reception).ret both.2 = (both.2, []) :=
    fun _ _ => if_neg (read_of_quiet socket quiet both.1)
  exact ⟨congrArg Prod.fst (skipped _ _), congrArg Prod.snd (skipped _ _)⟩

theorem step_of_packet {reception : Reception}
    {packet : SocketKey × List Byte}
    (sent : packet? reception = some packet)
    (both : (ℕ → Byte) × (Index → State)) :
    ∃ data : ℕ → Byte,
      (∀ index : ℕ, (index : ℤ) < packet.2.length →
        data index = packet.2.getD index 0) ∧
      (0 : ℤ) < packet.2.length ∧
      (thread socket io devices).step both reception =
        let handed := io.onRead devices packet.1 data packet.2.length both.2
        ((data, handed.1), handed.2) := by
  cases reception with
  | failed => cases sent
  | datagram cliAddr bytes =>
      rw [packet?] at sent
      split at sent
      · cases sent
      · rename_i nonempty
        obtain rfl := Option.some.inj sent
        have positive : 0 < (recvfrom Socket.requested bytes).bytes.length :=
          List.length_pos_of_ne_nil nonempty
        refine ⟨(recvfrom Socket.requested bytes).put both.1, ?_,
          Int.natCast_pos.mpr positive, ?_⟩
        · intro index inside
          have touched : (recvfrom Socket.requested bytes).Touches index :=
            ⟨Nat.zero_le _, by
              rw [recvfrom, Nat.zero_add]
              exact Int.ofNat_lt.mp inside⟩
          rw [Write.put, if_pos touched]
          rfl
        · simp only [thread, Socket.read, if_pos positive]
          rfl

/-- What reaches a device of what is read. -/
def bytesFor? (io : IoKey SocketKey Index) (index : Index)
    (reception : Reception) : Option (List Byte) :=
  (packet? reception).bind fun packet =>
    if io.find packet.1 = some index then some packet.2
    else none

theorem step_state {index : Index} (reads : ReadsReceived (devices index))
    (both : (ℕ → Byte) × (Index → State)) (reception : Reception) :
    ((thread socket io devices).step both reception).1.2 index =
      (bytesFor? io index reception).elim (both.2 index)
        (hear (devices index) (both.2 index)) := by
  cases sent : packet? reception with
  | none =>
      rw [(step_of_quiet socket sent both).1, bytesFor?, sent]
      rfl
  | some packet =>
      obtain ⟨data, agrees, positive, stepped⟩ :=
        step_of_packet socket sent both
      rw [stepped, bytesFor?, sent, Option.bind_some]
      simp only [onRead, if_pos positive]
      cases held : io.find packet.1 with
      | none => simp only [reduceCtorEq, if_false, Option.elim_none]
      | some other =>
          simp only [Option.some.injEq]
          by_cases same : other = index
          · subst same
            rw [if_pos rfl, Function.update_self,
              reads data _ _ _ agrees]
            rfl
          · rw [if_neg same, Function.update_of_ne (Ne.symm same)]
            rfl

theorem exec_state {index : Index} (reads : ReadsReceived (devices index))
    (buffer : ℕ → Byte) (states : Index → State)
    (receptions : List Reception) :
    ((thread socket io devices).exec (buffer, states) receptions).2 index =
      (receptions.filterMap (bytesFor? io index)).foldl (hear (devices index))
        (states index) := by
  induction receptions generalizing buffer states with
  | nil => rfl
  | cons reception rest ih =>
      have stepped : ((thread socket io devices).step (buffer, states)
          reception).1.2 index = _ := step_state socket reads _ reception
      rw [Machine.exec_cons, ← Prod.eta
        ((thread socket io devices).step (buffer, states) reception).1, ih,
        stepped]
      cases own : bytesFor? io index reception with
      | none =>
          rw [List.filterMap_cons_none own]
          rfl
      | some bytes =>
          rw [List.filterMap_cons_some own]
          rfl

/-- What becomes of a packet. -/
def handling (io : IoKey SocketKey Index) (packet : SocketKey × List Byte) :
    Handling Index :=
  match io.find packet.1 with
  | none => .warns (io.unboundKey packet.1)
  | some index => .hands index packet.2

theorem bytesFor?_eq (index : Index) (reception : Reception) :
    bytesFor? io index reception =
      (packet? reception).bind (Handling.to? index ∘ handling io) := by
  rw [bytesFor?]
  congr 1
  funext packet
  rw [Function.comp_apply, handling]
  cases io.find packet.1 with
  | none => rfl
  | some other => simp only [Option.some.injEq, Handling.to?]

omit [DecidableEq Index] in
theorem given_eq {data : ℕ → Byte} {bytes : List Byte}
    (agrees : ∀ index : ℕ, (index : ℤ) < bytes.length →
      data index = bytes.getD index 0) : given data bytes.length = bytes := by
  refine List.ext_getElem ?_ fun index inside within => ?_
  · rw [given, List.length_map, List.length_range, Int.toNat_natCast]
  · simp only [given, List.getElem_map, List.getElem_range]
    rw [agrees index (Int.ofNat_lt.mpr within), List.getD_eq_getElem?_getD,
      List.getElem?_eq_getElem within, Option.getD_some]

theorem step_handling (both : (ℕ → Byte) × (Index → State))
    (reception : Reception) :
    ((thread socket io devices).step both reception).2 =
      ((packet? reception).map (handling io)).toList := by
  cases sent : packet? reception with
  | none =>
      rw [(step_of_quiet socket sent both).2]
      rfl
  | some packet =>
      obtain ⟨data, agrees, positive, stepped⟩ :=
        step_of_packet socket sent both
      rw [stepped, Option.map_some, handling]
      simp only [onRead, if_pos positive]
      cases io.find packet.1 with
      | none => rfl
      | some index => rw [given_eq agrees, Option.toList_some]

theorem outputs_handling (buffer : ℕ → Byte) (states : Index → State)
    (receptions : List Reception) :
    (thread socket io devices).outputs (buffer, states) receptions =
      (receptions.filterMap packet?).map (handling io) := by
  induction receptions generalizing buffer states with
  | nil => rfl
  | cons reception rest ih =>
      rw [Machine.outputs_cons, ← Prod.eta
        ((thread socket io devices).step (buffer, states) reception).1, ih,
        step_handling, List.filterMap_cons]
      cases packet? reception with
      | none => rfl
      | some packet => rfl

section Built

variable {order : List Index} (name : String)
  (stream? : Option (SocketKey → String))

/-- The io as the constructors of the devices leave it. -/
def built (name : String) (stream? : Option (SocketKey → String))
    (devices : Index → KeyedDevice SocketKey State) (order : List Index) :
    IoKey SocketKey Index :=
  (attaching devices).exec (new name stream?) order

theorem bytesFor?_built (index : Index) (reception : Reception) :
    bytesFor? (built name stream? devices order) index reception =
      if owner? devices order (devices index).ioKey = some index then
        sentFrom? (devices index).ioKey reception
      else none := by
  rw [bytesFor?, sentFrom?]
  cases packet? reception with
  | none => exact (ite_self none).symm
  | some packet =>
      rw [Option.bind_some, Option.bind_some, built, lookup_new]
      by_cases own : packet.1 = (devices index).ioKey
      · rw [own, if_pos rfl]
      · have foreign : owner? devices order packet.1 ≠ some index :=
          fun owner => own (ioKey_of_owner? owner).symm
        rw [if_neg own, if_neg foreign, ite_self]

/-- A device whose constructor reports no error is given what its own key
sends, in the order in which it comes, and nothing else; a device whose
constructor reports one is given nothing, in any run. -/
theorem thread_hands_own (socket : Socket) {order : List Index}
    (nodup : order.Nodup) {index : Index} (member : index ∈ order)
    (reads : ReadsReceived (devices index)) (buffer : ℕ → Byte)
    (states : Index → State) (receptions : List Reception) :
    ((thread socket (built name stream? devices order) devices).exec
        (buffer, states) receptions).2 index =
      if index ∈ refused devices (new name stream?) order then states index
      else
        (receptions.filterMap
            (sentFrom? (devices index).ioKey)).foldl
          (hear (devices index)) (states index) := by
  rw [exec_state socket reads]
  by_cases owner : owner? devices order (devices index).ioKey = some index
  · have untaken : index ∉ refused devices (new name stream?) order :=
      fun taken => (mem_refused_new_iff name stream? nodup member).mp taken
        owner
    rw [if_neg untaken]
    simp only [bytesFor?_built, if_pos owner]
  · have taken : index ∈ refused devices (new name stream?) order :=
      (mem_refused_new_iff name stream? nodup member).mpr owner
    rw [if_pos taken]
    simp only [bytesFor?_built, if_neg owner, List.filterMap_none,
      List.foldl_nil]

theorem thread_hands_own_of_three :
    let devices : ℕ → KeyedDevice SocketKey Byte := fun index =>
      { name := "client"
        ioKey := socketKey (0x0100007f, if index = 1 then 7 else 5)
        unpack := fun data len state =>
          (if 0 < len then data 0 else state, true) }
    let receptions : List Reception :=
      [.datagram ⟨0x0100007f, 0x0500⟩ [3, 4], .failed,
        .datagram ⟨0x0100007f, 0x0700⟩ [8], .datagram ⟨0, 0x0500⟩ [9]]
    let after := (thread ⟨256⟩ (built "plot" none devices [0, 1, 2])
      devices).exec (fun _ => 0, fun _ => 0) receptions
    after.2 0 = 3 ∧ after.2 1 = 8 ∧ after.2 2 = 0 := by
  intro devices receptions after
  have reads : ∀ index, ReadsReceived (devices index) := by
    intro index data other len state agrees
    change (if 0 < len then data 0 else state, true) =
      (if 0 < len then other 0 else state, true)
    split
    · rename_i positive
      rw [agrees 0 positive]
    · rfl
  have nodup : [0, 1, 2].Nodup := by decide
  have hands : ∀ index ∈ [0, 1, 2], after.2 index = _ := fun index member =>
    thread_hands_own "plot" none ⟨256⟩ nodup member (reads index) (fun _ => 0)
      (fun _ => 0) receptions
  refine ⟨(hands 0 (by decide)).trans ?_, (hands 1 (by decide)).trans ?_,
    (hands 2 (by decide)).trans ?_⟩
  · decide +kernel
  · decide +kernel
  · decide +kernel

/-- A packet is handed to the device whose key it carries and whose constructor
reported no error, or there is none with that key, and it is warned about. -/
def Handled (devices : Index → KeyedDevice SocketKey State)
    (order : List Index) (packet : SocketKey × List Byte) :
    Handling Index → Prop
  | .hands index bytes =>
      (devices index).ioKey = packet.1 ∧ bytes = packet.2 ∧ index ∈ order ∧
        index ∉ refused devices (new name stream?) order
  | .warns warning =>
      (∀ index ∈ order, (devices index).ioKey ≠ packet.1) ∧
        warning = (built name stream? devices order).unboundKey packet.1

omit [DecidableEq Index] in
theorem handled_handling {order : List Index} (nodup : order.Nodup)
    (packet : SocketKey × List Byte) :
    Handled name stream? devices order packet
      (handling (built name stream? devices order) packet) := by
  rw [handling, built, lookup_new]
  cases owner : owner? devices order packet.1 with
  | none =>
      refine ⟨fun index member own => ?_, rfl⟩
      exact of_decide_eq_false (Bool.not_eq_true _ |>.mp
        (List.find?_eq_none.mp owner index member)) own
  | some index =>
      have own := ioKey_of_owner? owner
      have member := List.mem_of_find?_eq_some owner
      refine ⟨own, rfl, member, fun taken => ?_⟩
      exact (mem_refused_new_iff name stream? nodup member).mp taken
        (own ▸ owner)

/-- What the thread does with the packets that it reads: each in its turn, and
none twice, is handed over or warned about.  Nothing else gets to a device. -/
theorem thread_loses_nothing
    (devices : Index → KeyedDevice SocketKey State) (socket : Socket)
    {order : List Index} (nodup : order.Nodup) (buffer : ℕ → Byte)
    (states : Index → State) (receptions : List Reception) :
    let run := thread socket (built name stream? devices order) devices
    let packets := receptions.filterMap packet?
    let done := run.outputs (buffer, states) receptions
    List.Forall₂ (Handled name stream? devices order) packets done ∧
      done.countP Handling.isHands + done.countP Handling.isWarning =
        packets.length ∧
      ∀ index, ReadsReceived (devices index) →
        (run.exec (buffer, states) receptions).2 index =
          (done.filterMap (Handling.to? index)).foldl (hear (devices index))
            (states index) := by
  intro run packets done
  have handled : done = packets.map
      (handling (built name stream? devices order)) :=
    outputs_handling socket buffer states receptions
  refine ⟨?_, ?_, fun index reads => ?_⟩
  · rw [handled, List.forall₂_map_right_iff, List.forall₂_same]
    exact fun packet _ => handled_handling name stream? nodup packet
  · have warned : done.countP Handling.isWarning =
        done.countP fun handling => ¬ handling.isHands = true :=
      List.countP_congr fun handling _ => by simp [Handling.isWarning]
    rw [warned, ← List.length_eq_countP_add_countP, handled, List.length_map]
  · rw [handled, List.filterMap_map, List.filterMap_filterMap]
    refine (exec_state socket reads buffer states receptions).trans ?_
    simp only [bytesFor?_eq]

theorem thread_loses_nothing_of_three :
    let devices : ℕ → KeyedDevice SocketKey ℕ := fun index =>
      { name := "client"
        ioKey := socketKey (0x0100007f, if index = 1 then 7 else 5)
        unpack := fun _ _ state => (state + 1, true) }
    let receptions : List Reception :=
      [.datagram ⟨0x0100007f, 0x0500⟩ [3, 4], .failed,
        .datagram ⟨0, 0x0500⟩ [9]]
    let done := (thread ⟨256⟩ (built "plot" none devices [0, 1, 2])
      devices).outputs (fun _ => 0, fun _ => 0) receptions
    done.countP Handling.isHands = 1 ∧
      done.countP Handling.isHands + done.countP Handling.isWarning = 2 := by
  intro devices receptions done
  have nodup : [0, 1, 2].Nodup := by decide
  refine ⟨by decide +kernel, ?_⟩
  exact (thread_loses_nothing "plot" none devices ⟨256⟩ nodup (fun _ => 0)
    (fun _ => 0) receptions).2.1.trans (by decide +kernel)

end Built

end Thread

end IoKey

end RoboBand.Io
