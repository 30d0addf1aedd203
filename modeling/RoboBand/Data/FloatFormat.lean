import Mathlib.Data.Int.Log
import Mathlib.Data.Rat.Floor
import Mathlib.Tactic.Ring

namespace RoboBand.Data

/-! Binary floating-point numbers, as the rationals they stand for.  There is
no greatest number: an overflow is left to whoever uses the format. -/

structure FloatFormat where
  precision : ℕ
  minExponent : ℤ
  positive : 0 < precision

def binary32 : FloatFormat := ⟨24, -149, by decide⟩

/-- The nearest whole number, of two the even one. -/
def roundHalfEven (x : ℚ) : ℤ :=
  if x - ⌊x⌋ < 1 / 2 then ⌊x⌋
  else if 1 / 2 < x - ⌊x⌋ then ⌊x⌋ + 1
  else if ⌊x⌋ % 2 = 0 then ⌊x⌋
  else ⌊x⌋ + 1

theorem roundHalfEven_intCast (n : ℤ) : roundHalfEven n = n := by
  have whole : (n : ℚ) - ⌊(n : ℚ)⌋ < 1 / 2 := by
    rw [Int.floor_intCast, sub_self]
    norm_num
  exact (if_pos whole).trans (Int.floor_intCast n)

theorem floor_le_roundHalfEven (x : ℚ) : ⌊x⌋ ≤ roundHalfEven x := by
  unfold roundHalfEven
  split_ifs <;> omega

theorem roundHalfEven_le_ceil (x : ℚ) : roundHalfEven x ≤ ⌈x⌉ := by
  have floorCeil := Int.floor_le_ceil x
  by_cases whole : x = ⌊x⌋
  · rw [whole, roundHalfEven_intCast, Int.ceil_intCast]
  · have above : ⌊x⌋ < ⌈x⌉ :=
      Int.lt_ceil.mpr ((Int.floor_le x).lt_of_ne' whole)
    unfold roundHalfEven
    split_ifs <;> omega

theorem abs_roundHalfEven_le {x : ℚ} {n : ℤ} (bounded : |x| ≤ n) :
    |roundHalfEven x| ≤ n := by
  obtain ⟨low, high⟩ := abs_le.mp bounded
  have below : -n ≤ ⌊x⌋ := Int.le_floor.mpr (by exact_mod_cast low)
  have above : ⌈x⌉ ≤ n := Int.ceil_le.mpr high
  exact abs_le.mpr ⟨below.trans (floor_le_roundHalfEven x),
    (roundHalfEven_le_ceil x).trans above⟩

namespace FloatFormat

variable (format : FloatFormat)

/-- The exponent of the last digit that is kept. -/
def exponent (x : ℚ) : ℤ :=
  max (Int.log 2 |x| + 1 - format.precision) format.minExponent

def round (x : ℚ) : ℚ :=
  roundHalfEven (x / 2 ^ format.exponent x) * 2 ^ format.exponent x

structure Represents (significand exponent : ℤ) (x : ℚ) : Prop where
  digits : |significand| < 2 ^ format.precision
  least : format.minExponent ≤ exponent
  value : x = significand * 2 ^ exponent

def Representable (x : ℚ) : Prop :=
  ∃ significand exponent, format.Represents significand exponent x

variable {format}

theorem exponent_le {significand exponent : ℤ} {x : ℚ}
    (represents : format.Represents significand exponent x) (nonzero : x ≠ 0) :
    format.exponent x ≤ exponent := by
  have positive : (0 : ℚ) < 2 ^ exponent := zpow_pos two_pos _
  have magnitude : |x| < (2 : ℕ) ^ (format.precision + exponent) := by
    have digits : |(significand : ℚ)| < 2 ^ format.precision := by
      exact_mod_cast represents.digits
    rw [represents.value, abs_mul, abs_of_pos positive, Nat.cast_ofNat,
      zpow_add₀ two_ne_zero, zpow_natCast]
    exact mul_lt_mul_of_pos_right digits positive
  have log := (Int.lt_zpow_iff_log_lt one_lt_two (abs_pos.mpr nonzero)).mp
    magnitude
  exact max_le (by omega) represents.least

theorem round_of_representable {x : ℚ}
    (representable : format.Representable x) : format.round x = x := by
  obtain ⟨significand, exponent, represents⟩ := representable
  by_cases zero : x = 0
  · rw [round, zero, zero_div]
    have none : roundHalfEven 0 = 0 := by exact_mod_cast roundHalfEven_intCast 0
    rw [none, Int.cast_zero, zero_mul]
  obtain ⟨shift, shifted⟩ := Int.le.dest (exponent_le represents zero)
  have last : (2 : ℚ) ^ format.exponent x ≠ 0 := zpow_ne_zero _ two_ne_zero
  have whole : x / 2 ^ format.exponent x = (significand * 2 ^ shift : ℤ) := by
    rw [div_eq_iff last]
    calc x
        = significand * 2 ^ exponent := represents.value
      _ = significand * (2 ^ shift * 2 ^ format.exponent x) := by
          rw [← shifted, zpow_add₀ two_ne_zero, zpow_natCast, mul_comm (2 ^ _)]
      _ = (significand * 2 ^ shift : ℤ) * 2 ^ format.exponent x := by
          push_cast
          rw [mul_assoc]
  rw [round, whole, roundHalfEven_intCast, ← whole, div_mul_cancel₀ _ last]

theorem round_zero : format.round 0 = 0 := by
  refine round_of_representable ⟨0, format.minExponent, ?_, le_rfl, ?_⟩
  · rw [abs_zero]
    exact pow_pos two_pos _
  · rw [Int.cast_zero, zero_mul]

/-- A significand of one digit too many, which ends in a zero. -/
theorem representable_of_abs_le {significand exponent : ℤ}
    (digits : |significand| ≤ 2 ^ format.precision)
    (least : format.minExponent ≤ exponent) :
    format.Representable (significand * 2 ^ exponent) := by
  obtain fits | full := digits.lt_or_eq
  · exact ⟨significand, exponent, fits, least, rfl⟩
  obtain ⟨precision, kept⟩ := Nat.exists_eq_succ_of_ne_zero
    format.positive.ne'
  rw [kept, pow_succ] at full
  have even : ∃ half : ℤ, significand = half * 2 ∧ |half| = 2 ^ precision := by
    obtain same | same := abs_choice significand
    · exact ⟨2 ^ precision, by rw [← full, same], abs_of_pos (by positivity)⟩
    · refine ⟨-2 ^ precision, by rw [neg_mul, ← full, same, neg_neg], ?_⟩
      rw [abs_neg, abs_of_pos (by positivity)]
  obtain ⟨half, double, digitsHalf⟩ := even
  refine ⟨half, exponent + 1, ?_, by omega, ?_⟩
  · rw [digitsHalf, kept]
    exact pow_lt_pow_right₀ one_lt_two (Nat.lt_succ_self _)
  · rw [double, zpow_add₀ two_ne_zero, zpow_one]
    push_cast
    ring

theorem representable_round (x : ℚ) :
    format.Representable (format.round x) := by
  have positive : (0 : ℚ) < 2 ^ format.exponent x := zpow_pos two_pos _
  refine representable_of_abs_le (abs_roundHalfEven_le ?_) (le_max_right _ _)
  rw [abs_div, abs_of_pos positive, div_le_iff₀ positive]
  have below := Int.lt_zpow_succ_log_self (R := ℚ) one_lt_two |x|
  have last : Int.log 2 |x| + 1 ≤ format.precision + format.exponent x := by
    have kept := le_max_left (Int.log 2 |x| + 1 - format.precision)
      format.minExponent
    rw [exponent]
    omega
  calc |x|
      ≤ 2 ^ (Int.log 2 |x| + 1) := by exact_mod_cast below.le
    _ ≤ 2 ^ (format.precision + format.exponent x) :=
        zpow_le_zpow_right₀ one_le_two last
    _ = ((2 ^ format.precision : ℤ) : ℚ) * 2 ^ format.exponent x := by
        rw [zpow_add₀ two_ne_zero, zpow_natCast]
        push_cast
        rfl

theorem representable_neg {x : ℚ} (representable : format.Representable x) :
    format.Representable (-x) := by
  obtain ⟨significand, exponent, digits, least, value⟩ := representable
  refine ⟨-significand, exponent, (abs_neg significand).trans_lt digits, least,
    ?_⟩
  rw [value, Int.cast_neg, neg_mul]

theorem representable_mul_pow {x : ℚ} (representable : format.Representable x)
    (shift : ℕ) : format.Representable (x * 2 ^ shift) := by
  obtain ⟨significand, exponent, digits, least, value⟩ := representable
  refine ⟨significand, exponent + shift, digits, by omega, ?_⟩
  rw [value, zpow_add₀ two_ne_zero, zpow_natCast, mul_assoc]

/-- Whole numbers of few digits are represented. -/
theorem representable_intCast {n : ℤ} (whole : format.minExponent ≤ 0)
    (digits : |n| ≤ 2 ^ format.precision) : format.Representable n := by
  have here : format.Representable (n * 2 ^ (0 : ℤ)) :=
    representable_of_abs_le digits whole
  rwa [zpow_zero, mul_one] at here

end FloatFormat

example : binary32.round (633 / 100) = 3318743 / 524288 := by decide +kernel

end RoboBand.Data
