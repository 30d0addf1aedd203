import RoboBand.Data.Clamp
import RoboBand.Data.Machine
import Mathlib.Algebra.Order.Field.Basic
import Mathlib.Algebra.Order.Field.Rat
import Mathlib.Tactic.Ring

namespace RoboBand.Util

open RoboBand.Data

/-! Single-input, single-output systems over exact numbers. -/

/-- A system that can be called with an input; the call may change it. -/
class Siso (System : Type*) where
  call : System → ℚ → System × ℚ

abbrev SisoFunc := ℚ → ℚ

instance : Siso SisoFunc where
  call func input := (func, func input)

structure Out where
  o : ℚ

/-- `input >> siso`.  The operator takes `siso` by value, so the call changes
the operator's own copy and the caller's object comes back as it was. -/
def streamRight {System : Type*} [Siso System] (input : ℚ) (siso : System) :
    System × Out :=
  (siso, ⟨(Siso.call siso input).2⟩)

/-- `input << siso`, with `siso` by value as well; the result is the new
`input`. -/
def streamLeft {System : Type*} [Siso System] (input : ℚ) (siso : System) :
    System × ℚ :=
  (siso, (Siso.call siso input).2)

inductive StreamOperator where
  | right
  | left

section Use

variable {System : Type*} [Siso System]

def calls : Machine System ℚ ℚ where
  step siso input :=
    let called := Siso.call siso input
    (called.1, [called.2])

def streams : Machine System (StreamOperator × ℚ) ℚ where
  step siso use :=
    match use.1 with
    | .right =>
        let streamed := streamRight use.2 siso
        (streamed.1, [streamed.2.o])
    | .left =>
        let streamed := streamLeft use.2 siso
        (streamed.1, [streamed.2])

@[simp] theorem calls_step (siso : System) (input : ℚ) :
    calls.step siso input =
      ((Siso.call siso input).1, [(Siso.call siso input).2]) := rfl

@[simp] theorem streams_step (siso : System) (use : StreamOperator × ℚ) :
    streams.step siso use = (siso, [(Siso.call siso use.2).2]) := by
  obtain ⟨operator, input⟩ := use
  cases operator <;> rfl

theorem streams_outputs (siso : System) (uses : List (StreamOperator × ℚ)) :
    streams.outputs siso uses =
      uses.map fun use => (Siso.call siso use.2).2 := by
  have fixed : ∀ use, (streams.step siso use).1 = siso :=
    fun use => congrArg Prod.fst (streams_step siso use)
  rw [Machine.outputs_of_fixed fixed, List.map_eq_flatMap]
  simp only [streams_step]

end Use

def limitRange (min max : ℚ) : SisoFunc := fun input =>
  let input := if input < min then min else input
  if max < input then max else input

def limit (n : ℚ) : SisoFunc := limitRange (-n) n

theorem limit_eq_clamp (n input : ℚ) : limit n input = clamp n input := by
  have raised : (if input < -n then -n else input) = max (-n) input := by
    rcases lt_or_ge input (-n) with below | above
    · rw [if_pos below, max_eq_left below.le]
    · rw [if_neg above.not_gt, max_eq_right above]
  simp only [limit, limitRange, raised, clamp]
  rcases lt_or_ge n (max (-n) input) with above | below
  · rw [if_pos above, min_eq_left above.le]
  · rw [if_neg below.not_gt, min_eq_right below]

end RoboBand.Util
