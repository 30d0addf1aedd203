import RoboBand.Data.Clamp
import Mathlib.Algebra.Order.Floor.Ring
import Mathlib.Algebra.Order.Field.Basic

namespace RoboBand.Data

/-! Numbers kept as a whole number of units of `1 / scale`.  The fraction is
dropped, which rounds toward zero; a number beyond the bound is kept as the
bound. -/

variable {α : Type*} [Field α] [LinearOrder α] [FloorRing α]

def towardZero (value : α) : ℤ := if 0 ≤ value then ⌊value⌋ else ⌈value⌉

theorem towardZero_of_nonneg {value : α} (nonneg : 0 ≤ value) :
    towardZero value = ⌊value⌋ :=
  if_pos nonneg

def toUnits (scale bound value : α) : ℤ :=
  towardZero (clamp bound value * scale)

variable [IsStrictOrderedRing α]

theorem towardZero_of_nonpos {value : α} (nonpos : value ≤ 0) :
    towardZero value = ⌈value⌉ := by
  rcases nonpos.eq_or_lt with rfl | negative
  · rw [towardZero_of_nonneg le_rfl, Int.floor_zero, Int.ceil_zero]
  · exact if_neg negative.not_ge

theorem towardZero_neg (value : α) :
    towardZero (-value) = -towardZero value := by
  rcases le_total 0 value with nonneg | nonpos
  · rw [towardZero_of_nonneg nonneg,
      towardZero_of_nonpos (neg_nonpos.mpr nonneg), Int.ceil_neg]
  · rw [towardZero_of_nonpos nonpos,
      towardZero_of_nonneg (neg_nonneg.mpr nonpos), Int.floor_neg]

theorem towardZero_mono {first second : α} (smaller : first ≤ second) :
    towardZero first ≤ towardZero second := by
  rcases le_total 0 first with nonneg | nonpos
  · rw [towardZero_of_nonneg nonneg,
      towardZero_of_nonneg (nonneg.trans smaller)]
    exact Int.floor_mono smaller
  rw [towardZero_of_nonpos nonpos]
  rcases le_total 0 second with above | below
  · rw [towardZero_of_nonneg above]
    have ceilNonpos : ⌈first⌉ ≤ 0 := Int.ceil_le.mpr (mod_cast nonpos)
    exact ceilNonpos.trans (Int.floor_nonneg.mpr above)
  · rw [towardZero_of_nonpos below]
    exact Int.ceil_mono smaller

theorem abs_towardZero_le (value : α) : |(towardZero value : α)| ≤ |value| := by
  rcases le_total 0 value with nonneg | nonpos
  · rw [towardZero_of_nonneg nonneg, abs_of_nonneg nonneg, abs_of_nonneg]
    · exact Int.floor_le value
    · exact mod_cast Int.floor_nonneg.mpr nonneg
  · rw [towardZero_of_nonpos nonpos, abs_of_nonpos nonpos, abs_of_nonpos]
    · exact neg_le_neg (Int.le_ceil value)
    · exact mod_cast Int.ceil_le.mpr (mod_cast nonpos)

theorem abs_towardZero_sub_lt (value : α) :
    |(towardZero value : α) - value| < 1 := by
  rcases le_total 0 value with nonneg | nonpos
  · rw [towardZero_of_nonneg nonneg, abs_sub_comm, Int.self_sub_floor,
      Int.abs_fract]
    exact Int.fract_lt_one value
  · have above : 0 ≤ (⌈value⌉ : α) - value :=
      sub_nonneg.mpr (Int.le_ceil value)
    rw [towardZero_of_nonpos nonpos, abs_of_nonneg above]
    exact sub_left_lt_of_lt_add (Int.ceil_lt_add_one value)

theorem abs_lt_abs_towardZero_add_one (value : α) :
    |value| < |(towardZero value : α)| + 1 := by
  calc |value|
      = |(towardZero value : α) - (towardZero value - value)| := by
        rw [sub_sub_cancel]
    _ ≤ |(towardZero value : α)| + |(towardZero value : α) - value| :=
        abs_sub _ _
    _ < |(towardZero value : α)| + 1 :=
        add_lt_add_right (abs_towardZero_sub_lt value) _

theorem towardZero_mul_nonneg (value : α) :
    0 ≤ (towardZero value : α) * value := by
  rcases le_total 0 value with nonneg | nonpos
  · rw [towardZero_of_nonneg nonneg]
    exact mul_nonneg (mod_cast Int.floor_nonneg.mpr nonneg) nonneg
  · rw [towardZero_of_nonpos nonpos]
    exact mul_nonneg_of_nonpos_of_nonpos
      (mod_cast Int.ceil_le.mpr (mod_cast nonpos)) nonpos

section ToUnits

variable {scale bound : α}

theorem toUnits_mono (positive : 0 ≤ scale) {first second : α}
    (smaller : first ≤ second) :
    toUnits scale bound first ≤ toUnits scale bound second := by
  apply towardZero_mono
  exact mul_le_mul_of_nonneg_right (clamp_mono bound smaller) positive

theorem toUnits_neg (nonneg : 0 ≤ bound) (value : α) :
    toUnits scale bound (-value) = -toUnits scale bound value := by
  rw [toUnits, clamp_neg_value nonneg, neg_mul, towardZero_neg, toUnits]

theorem abs_toUnits_le (nonneg : 0 ≤ bound) (positive : 0 ≤ scale)
    (value : α) : |toUnits scale bound value| ≤ ⌊bound * scale⌋ := by
  rw [Int.le_floor, Int.cast_abs]
  calc |(toUnits scale bound value : α)|
      ≤ |clamp bound value * scale| := abs_towardZero_le _
    _ = |clamp bound value| * scale := by rw [abs_mul, abs_of_nonneg positive]
    _ ≤ bound * scale := by
        gcongr
        exact abs_clamp_le_of_nonneg nonneg value

theorem abs_toUnits_div_le (positive : 0 < scale) (value : α) :
    |(toUnits scale bound value : α) / scale| ≤ |clamp bound value| := by
  rw [abs_div, abs_of_pos positive, div_le_iff₀ positive]
  calc |(toUnits scale bound value : α)|
      ≤ |clamp bound value * scale| := abs_towardZero_le _
    _ = |clamp bound value| * scale := by rw [abs_mul, abs_of_pos positive]

theorem abs_toUnits_div_sub_lt (positive : 0 < scale) (value : α) :
    |(toUnits scale bound value : α) / scale - clamp bound value| <
      1 / scale := by
  have unscaled : (toUnits scale bound value : α) / scale - clamp bound value =
      (toUnits scale bound value - clamp bound value * scale) / scale := by
    rw [sub_div, mul_div_cancel_right₀ _ positive.ne']
  rw [unscaled, abs_div, abs_of_pos positive]
  exact div_lt_div_of_pos_right (abs_towardZero_sub_lt _) positive

end ToUnits

end RoboBand.Data
