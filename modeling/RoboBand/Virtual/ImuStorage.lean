import RoboBand.Data.Machine

namespace RoboBand.Virtual.ImuStorage

open RoboBand.Data

/-! Where a virtual imu points to, and what it deletes.  Memory is a set of
names: the two arrays that the imu allocates, and the members of the devices. -/

inductive ArrayName where
  | ownAngle
  | ownSpeed
  | angle (device : ℕ)
  | speed (device : ℕ)
  deriving DecidableEq

structure ImuBinder where
  angle : ArrayName
  speed : ArrayName

/-- What an imu does that can be seen from outside of it. -/
inductive ImuEffect where
  | delete (array : ArrayName)
  | warning (text : String)
  deriving DecidableEq

structure Imu where
  name : String
  isBound : Bool
  angle : ArrayName
  speed : ArrayName

namespace Imu

def new (name : String) : Imu where
  name := name
  isBound := false
  angle := .ownAngle
  speed := .ownSpeed

def bind (imu : Imu) (binder : ImuBinder) : Imu × List ImuEffect :=
  ({ imu with angle := binder.angle, speed := binder.speed, isBound := true },
    if imu.isBound then
      [.warning ("[Imu<" ++ imu.name ++ ">] Binding repeatedly!")]
    else [.delete imu.angle, .delete imu.speed])

def destroy (imu : Imu) : List ImuEffect :=
  if imu.isBound then [] else [.delete imu.angle, .delete imu.speed]

def binding : Machine Imu ImuBinder ImuEffect where
  step := bind

/-- All that an imu does from its first bind to its end. -/
def effects (imu : Imu) (binders : List ImuBinder) : List ImuEffect :=
  binding.outputs imu binders ++ (binding.exec imu binders).destroy

def deleted? : ImuEffect → Option ArrayName
  | .delete array => some array
  | .warning _ => none

theorem effects_cons (imu : Imu) (binder : ImuBinder)
    (rest : List ImuBinder) :
    effects imu (binder :: rest) =
      (imu.bind binder).2 ++ effects (imu.bind binder).1 rest := by
  rw [effects, Machine.outputs_cons, Machine.exec_cons, List.append_assoc]
  rfl

/-- An imu that is bound deletes nothing any more. -/
theorem deleted_of_bound {imu : Imu} (bound : imu.isBound = true)
    (binders : List ImuBinder) :
    (effects imu binders).filterMap deleted? = [] := by
  induction binders generalizing imu with
  | nil =>
      change (imu.destroy).filterMap deleted? = []
      rw [destroy, if_pos bound]
      rfl
  | cons binder rest ih =>
      rw [effects_cons, List.filterMap_append, ih rfl, bind, if_pos bound]
      rfl

theorem exec_last (imu : Imu) (binders : List ImuBinder) :
    let after := binding.exec imu binders
    let last := binders.getLast?
    after.angle = (last.map ImuBinder.angle).getD imu.angle ∧
      after.speed = (last.map ImuBinder.speed).getD imu.speed := by
  induction binders using List.reverseRecOn with
  | nil => exact ⟨rfl, rfl⟩
  | append_singleton earlier binder ih =>
      simp only [Machine.exec_append, List.getLast?_concat]
      exact ⟨rfl, rfl⟩

/-- However often it is bound, and to whatever, an imu deletes its own two
arrays, each once, and nothing else; what it reads is what it was bound to
last. -/
theorem deletes_own (name : String) (binders : List ImuBinder) :
    (effects (new name) binders).filterMap deleted? =
        [.ownAngle, .ownSpeed] ∧
      (binding.exec (new name) binders).angle =
        (binders.getLast?.map ImuBinder.angle).getD .ownAngle ∧
      (binding.exec (new name) binders).speed =
        (binders.getLast?.map ImuBinder.speed).getD .ownSpeed := by
  refine ⟨?_, exec_last (new name) binders⟩
  cases binders with
  | nil => rfl
  | cons binder rest =>
      rw [effects_cons, List.filterMap_append, deleted_of_bound rfl rest]
      rfl

end Imu

end RoboBand.Virtual.ImuStorage
