import Mathlib.Algebra.Order.Group.Abs
import Mathlib.Algebra.Order.Group.MinMax

namespace RoboBand.Data

variable {α : Type*} [AddCommGroup α] [LinearOrder α]

/-! Limiting a value to a band around zero.  A bound that is not positive
leaves only the bound itself. -/

def clamp (bound value : α) : α := min bound (max (-bound) value)

theorem clamp_le (bound value : α) : clamp bound value ≤ bound :=
  min_le_left _ _

theorem clamp_le_max (bound value : α) :
    clamp bound value ≤ max (-bound) value :=
  min_le_right _ _

theorem clamp_mono (bound : α) : Monotone (clamp bound) :=
  fun _ _ smaller => min_le_min_left _ (max_le_max_left _ smaller)

theorem clamp_pos {bound value : α} (positive : 0 < bound)
    (above : 0 < value) : 0 < clamp bound value :=
  lt_min positive (lt_max_of_lt_right above)

variable [IsOrderedAddMonoid α]

theorem neg_le_clamp {bound : α} (nonneg : 0 ≤ bound) (value : α) :
    -bound ≤ clamp bound value :=
  le_min (neg_le_self nonneg) (le_max_left _ _)

theorem clamp_of_nonpos {bound : α} (nonpos : bound ≤ 0) (value : α) :
    clamp bound value = bound := by
  have below : bound ≤ -bound := nonpos.trans (neg_nonneg.mpr nonpos)
  exact min_eq_left (below.trans (le_max_left _ _))

theorem abs_clamp_le (bound value : α) : |clamp bound value| ≤ |bound| := by
  rcases le_total bound 0 with nonpos | nonneg
  · rw [clamp_of_nonpos nonpos]
  · rw [abs_of_nonneg nonneg, abs_le]
    exact ⟨neg_le_clamp nonneg value, clamp_le bound value⟩

theorem abs_clamp_le_of_nonneg {bound : α} (nonneg : 0 ≤ bound) (value : α) :
    |clamp bound value| ≤ bound := by
  calc |clamp bound value|
      ≤ |bound| := abs_clamp_le bound value
    _ = bound := abs_of_nonneg nonneg

theorem clamp_of_abs_le {bound value : α} (inside : |value| ≤ bound) :
    clamp bound value = value := by
  obtain ⟨above, below⟩ := abs_le.mp inside
  rw [clamp, max_eq_right above, min_eq_right below]

theorem clamp_clamp (bound value : α) :
    clamp bound (clamp bound value) = clamp bound value := by
  rcases le_total bound 0 with nonpos | nonneg
  · rw [clamp_of_nonpos nonpos, clamp_of_nonpos nonpos]
  · exact clamp_of_abs_le (abs_clamp_le_of_nonneg nonneg value)

theorem clamp_neg {bound value : α} (positive : 0 < bound)
    (below : value < 0) : clamp bound value < 0 :=
  min_lt_of_right_lt (max_lt (neg_neg_of_pos positive) below)

theorem clamp_neg_value {bound : α} (nonneg : 0 ≤ bound) (value : α) :
    clamp bound (-value) = -clamp bound value := by
  calc clamp bound (-value)
      = max (min bound (-bound)) (min bound (-value)) :=
        min_max_distrib_left _ _ _
    _ = max (-bound) (min bound (-value)) := by
        rw [min_eq_right (neg_le_self nonneg)]
    _ = max (-bound) (-max (-bound) value) := by
        rw [← min_neg_neg, neg_neg]
    _ = -clamp bound value := max_neg_neg _ _

theorem clamp_eq_bound_iff {bound value : α} (positive : 0 < bound) :
    clamp bound value = bound ↔ bound ≤ value := by
  rw [clamp, min_eq_left_iff, le_max_iff]
  exact or_iff_right (neg_lt_self positive).not_ge

theorem clamp_eq_neg_iff {bound value : α} (positive : 0 < bound) :
    clamp bound value = -bound ↔ value ≤ -bound := by
  constructor
  · intro low
    by_contra above
    have inside : -bound < clamp bound value :=
      lt_min (neg_lt_self positive) (lt_max_of_lt_right (not_le.mp above))
    exact inside.ne' low
  · intro below
    rw [clamp, max_eq_left below, min_eq_right (neg_le_self positive.le)]

/-- Two values become one when they are equal or beyond the same end. -/
theorem clamp_eq_clamp_iff {bound first second : α} :
    clamp bound first = clamp bound second ↔
      bound ≤ 0 ∨ first = second ∨ (bound ≤ first ∧ bound ≤ second) ∨
        first ≤ -bound ∧ second ≤ -bound := by
  rcases le_or_gt bound 0 with nonpos | positive
  · rw [clamp_of_nonpos nonpos, clamp_of_nonpos nonpos]
    exact iff_of_true rfl (Or.inl nonpos)
  rw [or_iff_right positive.not_ge]
  constructor
  · intro same
    by_cases high : bound ≤ first
    · rw [(clamp_eq_bound_iff positive).mpr high] at same
      exact Or.inr (Or.inl
        ⟨high, (clamp_eq_bound_iff positive).mp same.symm⟩)
    by_cases low : first ≤ -bound
    · rw [(clamp_eq_neg_iff positive).mpr low] at same
      exact Or.inr (Or.inr ⟨low, (clamp_eq_neg_iff positive).mp same.symm⟩)
    have firstKept : clamp bound first = first :=
      clamp_of_abs_le (abs_le.mpr ⟨(not_le.mp low).le, (not_le.mp high).le⟩)
    rw [firstKept] at same
    -- the second value is inside as well, or the first would be at an end
    have secondKept : clamp bound second = second := by
      apply clamp_of_abs_le
      refine abs_le.mpr
        ⟨le_of_not_ge fun below => ?_, le_of_not_ge fun above => ?_⟩
      · exact low (same.trans ((clamp_eq_neg_iff positive).mpr below)).le
      · exact high (same.trans ((clamp_eq_bound_iff positive).mpr above)).ge
    exact Or.inl (same.trans secondKept)
  · rintro (rfl | ⟨first, second⟩ | ⟨first, second⟩)
    · rfl
    · rw [(clamp_eq_bound_iff positive).mpr first,
        (clamp_eq_bound_iff positive).mpr second]
    · rw [(clamp_eq_neg_iff positive).mpr first,
        (clamp_eq_neg_iff positive).mpr second]

end RoboBand.Data
