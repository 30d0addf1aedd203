import RoboBand.Util.Config

namespace RoboBand.Io

open RoboBand.Util

/-! What the constructor and the destructor of a port ask of the system. -/

inductive PortCall where
  | opens
  | flock
  | tcgetattr
  | tcsetattr
  | tcflush
  | tcflushLast
  | closes

/-- What a call on the port of a name sets `errno` to, where it fails. -/
structure System where
  errno? : String → PortCall → Option ℤ
  strerror : ℤ → String

namespace SerialPort

variable (system : System) (name : String)

def errorFrom (call : String) (errno : ℤ) : String :=
  "[Serial<" ++ name ++ ">] Error " ++ toString errno ++ " from " ++ call ++
    ": " ++ system.strerror errno

/-- The calls of `Serial::Serial`, and what is logged of one that fails. -/
def calls : List (PortCall × (ℤ → String)) :=
  [(.opens, errorFrom system name "open"),
    (.flock, fun _ => "[Serial<" ++ name ++
      ">] This port is already locked by another process."),
    (.tcgetattr, errorFrom system name "tcgetattr"),
    (.tcsetattr, errorFrom system name "tcsetattr"),
    (.tcflush, errorFrom system name "tcflush")]

/-- The status of the exit and the error, if the call fails. -/
def failed? (called : PortCall × (ℤ → String)) : Option (ℤ × String) :=
  (system.errno? name called.1).map fun errno => (errno, called.2 errno)

/-- The process exits at the first call that fails. -/
def makeCalls : List (PortCall × (ℤ → String)) → Reading Unit
  | [] => pure ()
  | called :: rest =>
      match failed? system name called with
      | none => makeCalls rest
      | some (status, text) => ⟨[.error text], .error (.exits status)⟩

def openPort : Reading Unit := makeCalls system name (calls system name)

def complain (call : PortCall) (text : String) : List LogLine :=
  match system.errno? name call with
  | none => []
  | some errno => [.error (errorFrom system name text errno)]

/-- `Serial::~Serial`. -/
def closePort : List LogLine :=
  complain system name .tcflushLast "tcflush" ++
    complain system name .closes "close"

/-- Why there is no port of this name, if there is none. -/
def refusal? : Option (ℤ × String) :=
  (calls system name).findSome? (failed? system name)

variable {system name}

theorem makeCalls_eq (made : List (PortCall × (ℤ → String))) :
    makeCalls system name made =
      match made.findSome? (failed? system name) with
      | none => pure ()
      | some (status, text) => ⟨[.error text], .error (.exits status)⟩ := by
  induction made with
  | nil => rfl
  | cons called rest ih =>
      rw [makeCalls, List.findSome?_cons]
      cases failed? system name called with
      | none => exact ih
      | some failure => rfl

theorem openPort_of_opens (opens : refusal? system name = none) :
    openPort system name = pure () := by
  rw [refusal?] at opens
  rw [openPort, makeCalls_eq, opens]

theorem openPort_of_refused {status : ℤ} {text : String}
    (refused : refusal? system name = some (status, text)) :
    openPort system name = ⟨[.error text], .error (.exits status)⟩ := by
  rw [refusal?] at refused
  rw [openPort, makeCalls_eq, refused]

end SerialPort

end RoboBand.Io
