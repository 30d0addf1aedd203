import RoboBand.Data.Machine

namespace RoboBand.Virtual.MotorStorage

open RoboBand.Data

/-! Where the members of a virtual motor point to, and what it deletes.  Memory
is a set of names: the two floats that the motor allocates, and the members of
the devices. -/

inductive MotorClass where
  | unitreeMotor
  | webotsMotor
  deriving DecidableEq

structure Device where
  cls : MotorClass
  number : ℕ
  deriving DecidableEq

inductive Cell where
  | ownAngle
  | ownSpeed
  | angle (device : Device)
  | speed (device : Device)
  deriving DecidableEq

/-- A function to set the torque is given by the device it belongs to. -/
structure MotorBinder where
  setTorque : Device
  angle : Cell
  speed : Cell
  actual : Option Device

def UnitreeMotor.binder (device : Device) : MotorBinder where
  setTorque := device
  angle := .angle device
  speed := .speed device
  actual := some device

/-- The initialiser leaves `actual` out, which makes it null. -/
def WebotsMotor.binder (device : Device) : MotorBinder where
  setTorque := device
  angle := .angle device
  speed := .speed device
  actual := none

def Device.binder (device : Device) : MotorBinder :=
  match device.cls with
  | .unitreeMotor => UnitreeMotor.binder device
  | .webotsMotor => WebotsMotor.binder device

/-- `setTorque` is `none` while it is `setTorqueDefault`. -/
structure Motor where
  setTorque : Option Device
  actual : Option Device
  angle : Cell
  speed : Cell

namespace Motor

def new : Motor where
  setTorque := none
  actual := none
  angle := .ownAngle
  speed := .ownSpeed

def isBound (motor : Motor) : Bool := motor.actual.isSome

/-- The motor bound to the device, and the cells that were deleted. -/
def bind (motor : Motor) (binder : MotorBinder) : Motor × List Cell :=
  ({ setTorque := some binder.setTorque
     actual := binder.actual
     angle := binder.angle
     speed := binder.speed },
    if motor.isBound then [] else [motor.angle, motor.speed])

def destroy (motor : Motor) : List Cell :=
  if motor.isBound then [] else [motor.angle, motor.speed]

def binding : Machine Motor Device Cell where
  step motor device := motor.bind device.binder

def deletions (motor : Motor) (devices : List Device) : List Cell :=
  binding.outputs motor devices ++ (binding.exec motor devices).destroy

def HoldsOwn (motor : Motor) : Prop :=
  motor.angle = .ownAngle ∧ motor.speed = .ownSpeed

/-- `delete` meets the two cells of the motor, each once, and nothing else. -/
def DeletesOwn (devices : List Device) : Prop :=
  (deletions .new devices).Perm [.ownAngle, .ownSpeed]

/-- At any time the motor is unbound just as long as it holds its own cells. -/
def TellsOwn (devices : List Device) : Prop :=
  ∀ bound, bound <+: devices →
    ((binding.exec .new bound).isBound = false ↔
      (binding.exec .new bound).HoldsOwn)

theorem deletions_cons (motor : Motor) (device : Device)
    (rest : List Device) :
    deletions motor (device :: rest) =
      motor.destroy ++ deletions (motor.bind device.binder).1 rest := by
  rw [deletions, Machine.outputs_cons, Machine.exec_cons, List.append_assoc]
  rfl

theorem angle_bind (motor : Motor) (device : Device) :
    (motor.bind device.binder).1.angle = .angle device := by
  obtain ⟨cls, number⟩ := device
  cases cls with
  | unitreeMotor => rfl
  | webotsMotor => rfl

theorem isBound_bind (motor : Motor) (device : Device) :
    (motor.bind device.binder).1.isBound = true ↔
      device.cls = .unitreeMotor := by
  obtain ⟨cls, number⟩ := device
  cases cls with
  | unitreeMotor => exact iff_of_true rfl rfl
  | webotsMotor => exact iff_of_false Bool.false_ne_true nofun

/-- What an unbound motor holds is deleted next, be it by a bind or in the
end. -/
theorem mem_deletions_of_unbound {motor : Motor}
    (unbound : motor.isBound = false) (devices : List Device) :
    motor.angle ∈ deletions motor devices := by
  have deleted : motor.angle ∈ motor.destroy := by
    rw [destroy, unbound]
    exact List.mem_cons_self
  cases devices with
  | nil => exact deleted
  | cons device rest =>
      rw [deletions_cons]
      exact List.mem_append_left _ deleted

theorem deletions_bound {motor : Motor} (bound : motor.isBound = true)
    {devices : List Device}
    (all : ∀ device ∈ devices, device.cls = .unitreeMotor) :
    deletions motor devices = [] := by
  have kept : motor.destroy = [] := if_pos bound
  induction devices generalizing motor with
  | nil => exact kept
  | cons device rest ih =>
      obtain ⟨here, later⟩ := List.forall_mem_cons.mp all
      have next := (isBound_bind motor device).mpr here
      rw [deletions_cons, kept, ih next later (if_pos next)]
      rfl

theorem mem_deletions_of_webots {motor : Motor} {devices : List Device}
    {device : Device} (member : device ∈ devices)
    (webots : device.cls ≠ .unitreeMotor) :
    .angle device ∈ deletions motor devices := by
  induction devices generalizing motor with
  | nil => exact nomatch member
  | cons first rest ih =>
      rw [deletions_cons]
      apply List.mem_append_right
      obtain rfl | later := List.mem_cons.mp member
      · have unbound : (motor.bind device.binder).1.isBound = false :=
          Bool.eq_false_iff.mpr
            (mt (isBound_bind motor device).mp webots)
        have held := mem_deletions_of_unbound unbound rest
        rwa [angle_bind] at held
      · exact ih later

theorem deletesOwn_iff (devices : List Device) :
    DeletesOwn devices ↔
      ∀ device ∈ devices, device.cls = .unitreeMotor := by
  constructor
  · intro own device member
    by_contra webots
    have deleted := own.mem_iff.mp (mem_deletions_of_webots member webots)
    simp at deleted
  · intro all
    cases devices with
    | nil => exact .refl _
    | cons device rest =>
        obtain ⟨here, later⟩ := List.forall_mem_cons.mp all
        have bound := (isBound_bind .new device).mpr here
        rw [DeletesOwn, deletions_cons, deletions_bound bound later]
        exact .refl _

theorem exec_concat (bound : List Device) (device : Device) :
    binding.exec .new (bound ++ [device]) =
      ((binding.exec .new bound).bind device.binder).1 := by
  rw [Machine.exec_append]
  rfl

theorem not_holdsOwn_bind (motor : Motor) (device : Device) :
    ¬ (motor.bind device.binder).1.HoldsOwn := by
  rintro ⟨angle, _⟩
  rw [angle_bind] at angle
  exact nomatch angle

theorem tellsOwn_iff (devices : List Device) :
    TellsOwn devices ↔
      ∀ device ∈ devices, device.cls = .unitreeMotor := by
  constructor
  · intro tells device member
    obtain ⟨before, after, rfl⟩ := List.append_of_mem member
    have here := tells (before ++ [device]) ⟨after, by simp⟩
    rw [exec_concat] at here
    have unbound := mt here.mp (not_holdsOwn_bind _ device)
    exact (isBound_bind _ device).mp ((Bool.not_eq_false _).mp unbound)
  · intro all bound before
    induction bound using List.reverseRecOn with
    | nil => exact iff_of_true rfl ⟨rfl, rfl⟩
    | append_singleton earlier device ih =>
        rw [exec_concat]
        refine iff_of_false ?_ (not_holdsOwn_bind _ device)
        have member : device ∈ devices :=
          before.subset (List.mem_append_right _ (List.mem_singleton.mpr rfl))
        rw [(isBound_bind _ device).mpr (all device member)]
        exact Bool.true_eq_false.mp

/-- The binder of a simulated motor hides that the motor is bound. -/
theorem ownership_iff (devices : List Device) :
    (DeletesOwn devices ↔
        ∀ device ∈ devices, device.cls = .unitreeMotor) ∧
      (TellsOwn devices ↔
        ∀ device ∈ devices, device.cls = .unitreeMotor) :=
  ⟨deletesOwn_iff devices, tellsOwn_iff devices⟩

/-- The constructor of the simulated robot binds, and its `run` binds again. -/
theorem lqrSim_deletes_device_cells :
    deletions .new [⟨.webotsMotor, 0⟩, ⟨.webotsMotor, 0⟩] =
        [.ownAngle, .ownSpeed, .angle ⟨.webotsMotor, 0⟩,
          .speed ⟨.webotsMotor, 0⟩, .angle ⟨.webotsMotor, 0⟩,
          .speed ⟨.webotsMotor, 0⟩] ∧
      ¬ DeletesOwn [⟨.webotsMotor, 0⟩, ⟨.webotsMotor, 0⟩] ∧
      ¬ TellsOwn [⟨.webotsMotor, 0⟩, ⟨.webotsMotor, 0⟩] := by
  refine ⟨rfl, fun own => ?_, fun tells => ?_⟩
  · exact absurd own.length_eq (by decide)
  · have first := tells [⟨.webotsMotor, 0⟩] ⟨[⟨.webotsMotor, 0⟩], rfl⟩
    exact nomatch (first.mp rfl).1

end Motor

end RoboBand.Virtual.MotorStorage
