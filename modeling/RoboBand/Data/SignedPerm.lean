import Mathlib.Data.Matrix.Mul

namespace RoboBand.Data

/-! Symmetries of a linear map that permute the coordinates and turn the sign of
some. -/

/-- A permutation that undoes itself and keeps the signs. -/
structure SignedPerm (index R : Type*) [Ring R] where
  perm : index → index
  sign : index → R
  square : ∀ i, sign i * sign i = 1
  involutive : Function.Involutive perm
  sign_perm : ∀ i, sign (perm i) = sign i

namespace SignedPerm

variable {index row R : Type*}

section Ring

variable [Ring R] (symmetry : SignedPerm index R)

def act (x : index → R) : index → R :=
  fun i => symmetry.sign i * x (symmetry.perm i)

theorem act_act (x : index → R) : symmetry.act (symmetry.act x) = x := by
  funext i
  rw [act, act, symmetry.involutive, symmetry.sign_perm, ← mul_assoc,
    symmetry.square, one_mul]

theorem act_sub (x y : index → R) :
    symmetry.act (x - y) = symmetry.act x - symmetry.act y :=
  funext fun _ => mul_sub _ _ _

@[simp] theorem act_zero : symmetry.act 0 = 0 := funext fun _ => mul_zero _

end Ring

section CommRing

variable [CommRing R] [Fintype index] (symmetry : SignedPerm index R)

open Matrix

theorem act_dotProduct_act (x y : index → R) :
    symmetry.act x ⬝ᵥ symmetry.act y = x ⬝ᵥ y := by
  rw [dotProduct, dotProduct,
    ← Equiv.sum_comp (symmetry.involutive.toPerm) fun i => x i * y i]
  refine Finset.sum_congr rfl fun i _ => ?_
  rw [act, act, mul_mul_mul_comm, symmetry.square, one_mul]
  rfl

/-- Where the rows go over into each other, so do the values. -/
theorem mulVec_act {gain : Matrix row index R} {exchange : row → row}
    (rows : ∀ r, gain (exchange r) = symmetry.act (gain r)) (x : index → R)
    (r : row) :
    (gain *ᵥ symmetry.act x) (exchange r) = (gain *ᵥ x) r := by
  rw [mulVec, rows r]
  exact symmetry.act_dotProduct_act (gain r) x

end CommRing

end SignedPerm

end RoboBand.Data
