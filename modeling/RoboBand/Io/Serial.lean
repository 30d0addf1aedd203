import RoboBand.Data.Framing
import RoboBand.Data.OrderedMap
import RoboBand.Data.Packed

namespace RoboBand.Io

open RoboBand.Data

structure Serial where
  bufferSize : Nat
  headTails : OrderedMap (List Byte) (List Byte)

/-- The locals of `Serial::read`, and the array it was given. -/
structure ReadState where
  data : List Byte
  readLen : Nat
  gotData : Bool

/-- What one turn of the loop of `Serial::read` meets at the port. -/
inductive PortEvent where
  /-- `::read` stored a chunk at `data + read_len`. -/
  | bytes (chunk : List Byte)
  /-- `::read` returned 0; `ppoll` then reports whether `POLLIN` is set. -/
  | empty (pollIn : Bool)
  /-- `::read` returned an error. -/
  | failed (ret : Int)

inductive ReadOutcome where
  | running (state : ReadState)
  | returned (ret : Int) (data : List Byte)

structure Received where
  ret : Int
  data : List Byte
  deriving DecidableEq

namespace Serial

/-- A port just opened: no head is registered yet. -/
def new (bufferSize : Nat) : Serial where
  bufferSize := bufferSize
  headTails := .empty

def addRxHeadTail (serial : Serial) (head tail : List Byte) : Serial :=
  { serial with headTails := serial.headTails.insertOrAssign head tail }

def store (data : List Byte) (offset : Nat) (chunk : List Byte) : List Byte :=
  data.take offset ++ chunk ++ data.drop (offset + chunk.length)

def memmove (data : List Byte) (pos len : Nat) : List Byte :=
  (data.drop pos).take len ++ data.drop len

/-- The loop over `head_tails`.  `rx` stays the string taken before the loop
while `read_len` changes under it. -/
def searchHeads (rx : List Byte) :
    List (List Byte × List Byte) → List Byte → Nat → List Byte × Nat
  | [], data, readLen => (data, readLen)
  | (head, _) :: rest, data, readLen =>
      if readLen < head.length then
        (data, readLen)
      else
        match find? head rx with
        | none => searchHeads rx rest data 0
        | some pos =>
            let readLen := readLen - pos
            (if pos ≠ 0 then memmove data pos readLen else data, readLen)

def onBytes (serial : Serial) (state : ReadState) (chunk : List Byte) :
    ReadState :=
  let data := store state.data state.readLen chunk
  let readLen := state.readLen + chunk.length
  let rx := data.take readLen
  let found := searchHeads rx serial.headTails.entries data readLen
  { data := found.1, readLen := found.2, gotData := true }

def loopBody (serial : Serial) (state : ReadState) : PortEvent → ReadOutcome
  | .failed ret => .returned ret state.data
  | .empty pollIn =>
      if pollIn then .running state else .returned state.readLen state.data
  | .bytes chunk => .running (serial.onBytes state chunk)

def loopTest (serial : Serial) (state : ReadState) : ReadOutcome :=
  if state.readLen < serial.bufferSize then
    .running state
  else
    .returned state.readLen state.data

def readTurn (serial : Serial) (state : ReadState) (event : PortEvent) :
    ReadOutcome :=
  match serial.loopBody state event with
  | .running next => serial.loopTest next
  | .returned ret data => .returned ret data

def start (serial : Serial) : ReadState where
  data := List.replicate serial.bufferSize 0
  readLen := 0
  gotData := false

/-- Successive calls of `Serial::read` as `IoNoKey::thread_func` makes them:
each begins with the buffer set to zero, and a call that ends hands over what
it returned.  The buffer is taken not to be empty. -/
def reader (serial : Serial) : Machine ReadState PortEvent Received where
  step state event :=
    match serial.readTurn state event with
    | .running next => (next, [])
    | .returned ret data => (serial.start, [⟨ret, data⟩])

/-- A port delivers at least one byte and at most what `::read` asked for. -/
def PortAllowed (serial : Serial) (state : ReadState) : PortEvent → Prop
  | .bytes chunk =>
      chunk ≠ [] ∧ chunk.length ≤ serial.bufferSize - state.readLen
  | .empty _ => True
  | .failed ret => ret < 0

instance (serial : Serial) (state : ReadState) :
    (event : PortEvent) → Decidable (serial.PortAllowed state event)
  | .bytes _ => inferInstanceAs (Decidable (_ ∧ _))
  | .empty _ => isTrue trivial
  | .failed ret => inferInstanceAs (Decidable (ret < 0))

end Serial

end RoboBand.Io
