import RoboBand.Virtual.MotorStorage
import Mathlib.Data.Fin.VecNotation
import Mathlib.Data.List.OfFn
import Mathlib.Data.Rat.Defs

namespace RoboBand.Virtual.MotorStorage.Motor

open RoboBand.Data

/-! Chains `torque >> motor >> motor`.  Each link gives what the operator
returns, for the next link, and the motor and the torque that it is set to. -/

/-- `float operator>>(float torque, Motor &motor)`. -/
def streamTorque (torque : ℚ) (motor : Motor) : ℚ × Motor × ℚ :=
  (torque, motor, torque)

variable {n : ℕ}

/-- `*torque`, where there is nothing to read beyond the array. -/
def deref (array : Fin n → ℚ) (torque : ℕ) : Option ℚ :=
  if inside : torque < n then some (array ⟨torque, inside⟩) else none

/-- `torque++`: the value of the expression, and then that of the variable. -/
def postIncrement (torque : ℕ) : ℕ × ℕ := (torque, torque + 1)

/-- `float *operator>>(float *torque, Motor &motor)`.  The variable that is
incremented is the operator's own. -/
def streamPointer (array : Fin n → ℚ) (torque : ℕ) (motor : Motor) :
    ℕ × Motor × Option ℚ :=
  let sent := deref array torque
  let (returned, _) := postIncrement torque
  (returned, motor, sent)

def torqueChain : Machine ℚ Motor (Motor × ℚ) where
  step torque motor :=
    let (returned, sent) := streamTorque torque motor
    (returned, [sent])

def pointerChain (array : Fin n → ℚ) :
    Machine ℕ Motor (Motor × Option ℚ) where
  step torque motor :=
    let (returned, sent) := streamPointer array torque motor
    (returned, [sent])

theorem outputs_torqueChain (torque : ℚ) (motors : List Motor) :
    torqueChain.outputs torque motors =
      motors.map fun motor => (motor, torque) := by
  rw [Machine.outputs_of_fixed (fun _ => rfl), List.map_eq_flatMap]
  rfl

theorem outputs_pointerChain (array : Fin n → ℚ) (torque : ℕ)
    (motors : List Motor) :
    (pointerChain array).outputs torque motors =
      motors.map fun motor => (motor, deref array torque) := by
  rw [Machine.outputs_of_fixed (fun _ => rfl), List.map_eq_flatMap]
  rfl

/-- A chain that starts at an array does what a chain that starts at the first
number of the array does. -/
theorem outputs_pointerChain_eq_torqueChain (array : Fin (n + 1) → ℚ)
    (motors : List Motor) :
    (pointerChain array).outputs 0 motors =
      (torqueChain.outputs (array 0) motors).map (Prod.map id some) := by
  rw [outputs_pointerChain, outputs_torqueChain, List.map_map]
  rfl

/-- The chain `array >> m_0 >> ... >> m_{n-1}` sets each motor to the number at
its own place. -/
def SendsEach (array : Fin n → ℚ) (motors : Fin n → Motor) : Prop :=
  (pointerChain array).outputs 0 (List.ofFn motors) =
    List.ofFn fun i => (motors i, some (array i))

theorem sendsEach_iff (array : Fin n → ℚ) (motors : Fin n → Motor) :
    SendsEach array motors ↔ ∀ i j, array i = array j := by
  have first : SendsEach array motors ↔
      ∀ i, deref array 0 = some (array i) := by
    rw [SendsEach, outputs_pointerChain, List.map_ofFn, List.ofFn_inj,
      funext_iff]
    simp only [Function.comp_apply, Prod.mk.injEq, true_and]
  rw [first]
  constructor
  · intro sent i j
    exact Option.some.inj ((sent i).symm.trans (sent j))
  · intro equal i
    have inside : 0 < n := i.pos
    rw [deref, dif_pos inside, equal]

theorem second_motor_gets_first_torque :
    let motors : Fin 2 → Motor := fun i =>
      (new.bind (UnitreeMotor.binder ⟨.unitreeMotor, i⟩)).1
    (pointerChain ![1, 2]).outputs 0 (List.ofFn motors) =
        [(motors 0, some 1), (motors 1, some 1)] ∧
      ¬ SendsEach ![1, 2] motors := by
  refine ⟨rfl, fun each => ?_⟩
  have sent := congrArg (fun outputs => outputs.map Prod.snd) each
  exact absurd sent (by decide +kernel)

end RoboBand.Virtual.MotorStorage.Motor
