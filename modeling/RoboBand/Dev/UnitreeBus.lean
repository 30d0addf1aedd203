import RoboBand.Data.Crc
import RoboBand.Dev.UnitreeMotor
import RoboBand.Io.IoNoKey
import Mathlib.Logic.Function.Basic

namespace RoboBand.Dev

open RoboBand.Data UnitreeMotor

/-! Motors that share one serial line. -/

variable {Index : Type*} [DecidableEq Index]

/-- What the constructor of a device registers with its `IoNoKey`. -/
def unpacker (crc : List Byte → BitVec 16) (index : Index) (data : ℕ → Byte)
    (len : ℤ) (motors : Index → UnitreeMotor) : (Index → UnitreeMotor) × Bool :=
  let unpacked := (motors index).unpack crc data len
  (Function.update motors index unpacked.1, unpacked.2)

def receive (crc : List Byte → BitVec 16) (order : List Index)
    (data : ℕ → Byte) (len : ℤ) (motors : Index → UnitreeMotor) :
    Index → UnitreeMotor :=
  Io.onRead (order.map (unpacker crc)) data len motors

section Own

variable {crc : List Byte → BitVec 16} {data : ℕ → Byte}

theorem UnitreeMotor.Accepts.unique {first second : Byte}
    (left : Accepts crc first data) (right : Accepts crc second data) :
    first = second :=
  left.own.symm.trans right.own

/-- What a motor that stands on the line makes of a frame. -/
def heard (crc : List Byte → BitVec 16) (data : ℕ → Byte)
    (motor : UnitreeMotor) : UnitreeMotor :=
  if Accepts crc motor.id data then motor.decoded data else motor

theorem dispatch_apply {motors : Index → UnitreeMotor}
    (distinct : Function.Injective fun index => (motors index).id)
    (len : ℤ) (order : List Index) (index : Index) :
    (Io.dispatch data len (order.map (unpacker crc)) motors).1 index =
      if index ∈ order then heard crc data (motors index)
      else motors index := by
  induction order with
  | nil => rfl
  | cons first rest ih =>
      rw [List.map_cons, Io.dispatch]
      by_cases accepted : Accepts crc (motors first).id data
      · simp only [unpacker, unpack_of_accepts accepted, if_true]
        by_cases same : index = first
        · subst same
          rw [Function.update_self, if_pos List.mem_cons_self, heard,
            if_pos accepted]
        · have rejected : ¬ Accepts crc (motors index).id data :=
            fun also => same (distinct (also.unique accepted))
          rw [Function.update_of_ne same, heard, if_neg rejected, ite_self]
      · simp only [unpacker, unpack_of_rejects accepted,
          Function.update_eq_self, Bool.false_eq_true, if_false]
        refine ih.trans ?_
        by_cases same : index = first
        · subst same
          rw [if_pos List.mem_cons_self, heard, if_neg accepted, ite_self]
        · simp only [List.mem_cons, same, false_or]

theorem receive_apply {motors : Index → UnitreeMotor}
    (distinct : Function.Injective fun index => (motors index).id)
    {order : List Index} {index : Index} (member : index ∈ order) (len : ℤ) :
    receive crc order data len motors index =
      if 0 < len then heard crc data (motors index) else motors index := by
  unfold receive Io.onRead
  split
  · rw [dispatch_apply distinct, if_pos member]
  · rfl

theorem heard_id (motor : UnitreeMotor) :
    (heard crc data motor).id = motor.id := by
  unfold heard
  split <;> rfl

end Own

section Line

variable {crc : List Byte → BitVec 16} {motors : Index → UnitreeMotor}
  {order other : List Index}

/-- The buffers of a run of `IoNoKey::thread_func`, each with its length. -/
def serve (crc : List Byte → BitVec 16) (order : List Index)
    (motors : Index → UnitreeMotor) (buffers : List ((ℕ → Byte) × ℤ)) :
    Index → UnitreeMotor :=
  buffers.foldl
    (fun motors buffer => receive crc order buffer.1 buffer.2 motors) motors

theorem receive_eq
    (distinct : Function.Injective fun index => (motors index).id)
    (data : ℕ → Byte) (len : ℤ) :
    receive crc order data len motors = fun index =>
      if 0 < len ∧ index ∈ order then heard crc data (motors index)
      else motors index := by
  funext index
  unfold receive Io.onRead
  by_cases positive : 0 < len
  · rw [if_pos positive, dispatch_apply distinct]
    simp only [positive, true_and]
  · simp only [positive, if_false, false_and]

theorem receive_id
    (distinct : Function.Injective fun index => (motors index).id)
    (data : ℕ → Byte) (len : ℤ) (index : Index) :
    (receive crc order data len motors index).id = (motors index).id := by
  simp only [receive_eq distinct]
  split
  · exact heard_id (motors index)
  · rfl

theorem receive_distinct
    (distinct : Function.Injective fun index => (motors index).id)
    (data : ℕ → Byte) (len : ℤ) :
    Function.Injective fun index =>
      (receive crc order data len motors index).id := by
  simpa only [receive_id distinct] using distinct

theorem serve_distinct
    (distinct : Function.Injective fun index => (motors index).id)
    (buffers : List ((ℕ → Byte) × ℤ)) :
    Function.Injective fun index =>
      (serve crc order motors buffers index).id := by
  induction buffers generalizing motors with
  | nil => exact distinct
  | cons buffer rest ih => exact ih (receive_distinct distinct _ _)

theorem serve_perm (perm : order.Perm other)
    (distinct : Function.Injective fun index => (motors index).id)
    (buffers : List ((ℕ → Byte) × ℤ)) :
    serve crc other motors buffers = serve crc order motors buffers := by
  induction buffers generalizing motors with
  | nil => rfl
  | cons buffer rest ih =>
      have same : receive crc other buffer.1 buffer.2 motors =
          receive crc order buffer.1 buffer.2 motors := by
        rw [receive_eq distinct, receive_eq distinct]
        simp only [perm.mem_iff]
      change serve crc other (receive crc other _ _ motors) rest = _
      rw [same]
      exact ih (receive_distinct distinct _ _)

/-- Only the motor whose id stands in the frame can change. -/
theorem id_of_receive_ne
    (distinct : Function.Injective fun index => (motors index).id)
    {data : ℕ → Byte} {len : ℤ} {index : Index}
    (changed : receive crc order data len motors index ≠ motors index) :
    (Data.readFeedback data).info.id.setWidth 8 = (motors index).id := by
  simp only [receive_eq distinct, heard] at changed
  by_contra foreign
  have rejected : ¬ Accepts crc (motors index).id data :=
    fun accepted => foreign accepted.own
  exact changed (by simp only [rejected, if_false, ite_self])

theorem receive_of_rejected
    (distinct : Function.Injective fun index => (motors index).id)
    {data : ℕ → Byte} {len : ℤ}
    (rejected : ∀ index ∈ order,
      ((motors index).unpack crc data len).2 = false) :
    receive crc order data len motors = motors := by
  rw [receive_eq distinct]
  funext index
  split
  · rename_i reached
    have refused := rejected index reached.2
    rw [unpack_eq] at refused
    rw [heard, if_neg]
    intro accepted
    rw [if_pos accepted] at refused
    cases refused
  · rfl

/-- The order in which the motors were registered does not matter, and a buffer
changes no motor but the one that it is for. -/
theorem serve_reaches_own_motor (crc : List Byte → BitVec 16)
    {motors : Index → UnitreeMotor}
    (distinct : Function.Injective fun index => (motors index).id)
    {order other : List Index} (perm : order.Perm other)
    (buffers : List ((ℕ → Byte) × ℤ)) :
    serve crc other motors buffers = serve crc order motors buffers ∧
      ∀ (data : ℕ → Byte) (len : ℤ),
        let now := serve crc order motors buffers
        let next := receive crc order data len now
        (∀ index, next index ≠ now index →
          (Data.readFeedback data).info.id.setWidth 8 = (now index).id) ∧
        (∀ first second, next first ≠ now first →
          next second ≠ now second → first = second) ∧
        ((∀ index ∈ order, ((now index).unpack crc data len).2 = false) →
          next = now) := by
  refine ⟨serve_perm perm distinct buffers, fun data len => ?_⟩
  intro now next
  have apart : Function.Injective fun index => (now index).id :=
    serve_distinct distinct buffers
  refine ⟨fun index => id_of_receive_ne apart, ?_, receive_of_rejected apart⟩
  intro first second firstChanged secondChanged
  apply apart
  exact (id_of_receive_ne apart firstChanged).symm.trans
    (id_of_receive_ne apart secondChanged)

theorem serve_reaches_one_of_two :
    let motors : Fin 2 → UnitreeMotor := fun index =>
      .new ⟨0, 0, ⟨0, 0, 0⟩, ⟨0, 0, 0, 0, 0⟩, 0⟩ (.ofNat 8 index.val) 1
    let first : ℕ → Byte := ([0xfd, 0xee, 0x11, 7, 0, 0, 2, 0, 0x40, 0, 0, 25,
      1, 0, 0xba, 0xcd].getD · 0)
    let second : ℕ → Byte := ([0xfd, 0xee, 0x10, 9, 0, 0, 1, 0, 3, 0, 0, 30, 0,
      0, 0x93, 0x10].getD · 0)
    let now := serve kermit [0, 1] motors [(first, 16)]
    let next := receive kermit [0, 1] second 16 now
    serve kermit [1, 0] motors [(first, 16)] = now ∧ (now 1).temp = 25 ∧
      (next 0).temp = 30 ∧ next 1 = now 1 := by
  intro motors first second now next
  have distinct : Function.Injective fun index => (motors index).id := by
    intro first second
    revert first second
    decide
  have reaches := serve_reaches_own_motor kermit distinct
    (List.Perm.swap 1 0 []) [(first, 16)]
  have before : (now 0).temp = 0 := by decide +kernel
  have after : (next 0).temp = 30 := by decide +kernel
  have changed : next 0 ≠ now 0 := by
    intro same
    rw [same, before] at after
    exact absurd after (by decide)
  refine ⟨reaches.1, by decide +kernel, after, ?_⟩
  by_contra alsoChanged
  have one : (0 : Fin 2) = 1 :=
    (reaches.2 second 16).2.1 0 1 changed alsoChanged
  exact absurd one (by decide)

end Line

end RoboBand.Dev
