import RoboBand.Data.Clamp
import Mathlib.Algebra.Order.Monoid.Unbundled.Pow

namespace RoboBand.Data

/-! A running sum that is limited to a band around zero after every term, so
that it leaves an end of the band as soon as the terms turn round. -/

variable {α : Type*} [AddCommGroup α] [LinearOrder α]

def saturatingSum (bound : α) : α → List α → α
  | sum, [] => sum
  | sum, term :: rest => saturatingSum bound (clamp bound (sum + term)) rest

@[simp] theorem saturatingSum_nil (bound sum : α) :
    saturatingSum bound sum [] = sum := rfl

@[simp] theorem saturatingSum_cons (bound sum term : α) (rest : List α) :
    saturatingSum bound sum (term :: rest) =
      saturatingSum bound (clamp bound (sum + term)) rest := rfl

variable [IsOrderedAddMonoid α]

theorem abs_saturatingSum_le {bound sum : α} (nonneg : 0 ≤ bound)
    (inside : |sum| ≤ bound) (terms : List α) :
    |saturatingSum bound sum terms| ≤ bound := by
  induction terms generalizing sum with
  | nil => exact inside
  | cons term rest ih => exact ih (abs_clamp_le_of_nonneg nonneg _)

theorem saturatingSum_map_neg {bound : α} (nonneg : 0 ≤ bound) (sum : α)
    (terms : List α) :
    saturatingSum bound (-sum) (terms.map fun term => -term) =
      -saturatingSum bound sum terms := by
  induction terms generalizing sum with
  | nil => rfl
  | cons term rest ih =>
      rw [List.map_cons, saturatingSum_cons, ← neg_add,
        clamp_neg_value nonneg, ih]
      rfl

/-- Terms that all lower the sum by `drop` bring it down from wherever it is,
to the lower end at most. -/
theorem saturatingSum_le (bound sum : α) {drop : α} (nonneg : 0 ≤ drop)
    {terms : List α} (all : ∀ term ∈ terms, term ≤ -drop) :
    saturatingSum bound sum terms ≤
      max (-bound) (sum - terms.length • drop) := by
  induction terms generalizing sum with
  | nil =>
      rw [List.length_nil, zero_nsmul, sub_zero]
      exact le_max_right _ _
  | cons term rest ih =>
      obtain ⟨here, later⟩ := List.forall_mem_cons.mp all
      have stepped : clamp bound (sum + term) ≤ max (-bound) (sum - drop) := by
        apply (clamp_le_max bound _).trans
        apply max_le_max_left
        rw [sub_eq_add_neg]
        gcongr
      have lowered : 0 ≤ rest.length • drop := nsmul_nonneg nonneg _
      refine (ih _ later).trans (max_le (le_max_left _ _) ?_)
      calc clamp bound (sum + term) - rest.length • drop
          ≤ max (-bound) (sum - drop) - rest.length • drop :=
            sub_le_sub_right stepped _
        _ = max (-bound - rest.length • drop)
              (sum - drop - rest.length • drop) :=
            (max_sub_sub_right _ _ _).symm
        _ ≤ max (-bound) (sum - (term :: rest).length • drop) := by
            apply max_le_max
            · exact sub_le_self _ lowered
            · rw [List.length_cons, succ_nsmul', sub_sub]

theorem le_saturatingSum {bound : α} (band : 0 ≤ bound) (sum : α) {rise : α}
    (nonneg : 0 ≤ rise) {terms : List α}
    (all : ∀ term ∈ terms, rise ≤ term) :
    min bound (sum + terms.length • rise) ≤ saturatingSum bound sum terms := by
  have lowered : ∀ term ∈ terms.map fun term => -term, term ≤ -rise := by
    intro term member
    obtain ⟨raised, inside, rfl⟩ := List.mem_map.mp member
    exact neg_le_neg (all raised inside)
  have mirrored := saturatingSum_le bound (-sum) nonneg lowered
  rw [saturatingSum_map_neg band, List.length_map] at mirrored
  calc min bound (sum + terms.length • rise)
      = -max (-bound) (-sum - terms.length • rise) := by
        rw [← neg_add', max_neg_neg, neg_neg]
    _ ≤ saturatingSum bound sum terms := neg_le.mp mirrored

end RoboBand.Data
