import RoboBand.Data.FixedPoint
import RoboBand.Util.Siso
import Mathlib.Data.Rat.Floor

namespace RoboBand.Util

open RoboBand.Data

def absLimit (x lim : ℚ) : ℚ :=
  let x := if x < -lim then -lim else x
  if lim < x then lim else x

theorem absLimit_eq_clamp (x lim : ℚ) : absLimit x lim = clamp lim x :=
  limit_eq_clamp lim x

theorem absLimit_neg {lim : ℚ} (nonneg : 0 ≤ lim) (x : ℚ) :
    absLimit (-x) lim = -absLimit x lim := by
  rw [absLimit_eq_clamp, absLimit_eq_clamp, clamp_neg_value nonneg]

def abs (x : ℚ) : ℚ := if x < 0 then -x else x

theorem abs_eq (x : ℚ) : Util.abs x = |x| := by
  rcases lt_or_ge x 0 with negative | nonneg
  · rw [Util.abs, if_pos negative, abs_of_neg negative]
  · rw [Util.abs, if_neg nonneg.not_gt, abs_of_nonneg nonneg]

/-- The conversion of a number to an integer type drops its fraction. -/
def truncate (x : ℚ) : ℤ := x.num.tdiv x.den

theorem truncate_of_nonneg {x : ℚ} (nonneg : 0 ≤ x) : truncate x = ⌊x⌋ := by
  rw [truncate, Int.tdiv_eq_ediv_of_nonneg (Rat.num_nonneg.mpr nonneg),
    Rat.floor_def']

theorem truncate_neg (x : ℚ) : truncate (-x) = -truncate x := by
  rw [truncate, Rat.neg_num, Rat.neg_den, Int.neg_tdiv, truncate]

theorem truncate_eq_towardZero (x : ℚ) : truncate x = towardZero x := by
  rcases le_total 0 x with nonneg | nonpos
  · rw [truncate_of_nonneg nonneg, towardZero_of_nonneg nonneg]
  · have above := neg_nonneg.mpr nonpos
    rw [← neg_neg x, truncate_neg, truncate_of_nonneg above, towardZero_neg,
      towardZero_of_nonneg above]

/-- The conversion to `int`.  Of a number that does not fit it is undefined;
here that number wraps round. -/
def toInt (x : ℚ) : Int32 := .ofInt (truncate x)

def FitsInt (n : ℤ) : Prop := -2147483648 ≤ n ∧ n < 2147483648

instance (n : ℤ) : Decidable (FitsInt n) :=
  inferInstanceAs (Decidable (_ ∧ _))

theorem toInt_toInt {x : ℚ} (fits : FitsInt (truncate x)) :
    (toInt x).toInt = truncate x :=
  Int32.toInt_ofInt_of_le fits.1 fits.2

theorem truncate_intCast (n : ℤ) : truncate n = n := by
  rw [truncate, Rat.num_intCast, Rat.den_intCast]
  exact Int.tdiv_one n

/-! The library's instances for the numerals of an index, each under a name, so
that an index has one proof in whatever definition it stands. -/

namespace Index

scoped instance two : NeZero 2 := inferInstance

scoped instance four : NeZero 4 := inferInstance

scoped instance six : NeZero 6 := inferInstance

end Index

end RoboBand.Util
