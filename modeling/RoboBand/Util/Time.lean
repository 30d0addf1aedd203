import Mathlib.Algebra.Order.Ring.Int
import Mathlib.Tactic.Ring

namespace RoboBand.Util

/-! Points in time as the C library keeps them, without overflow. -/

@[ext] structure Timespec where
  tvSec : ℤ
  tvNsec : ℤ
  deriving DecidableEq

/-- The nanoseconds of a second, of a millisecond, of a microsecond. -/
def secNs : ℤ := 1000000000

def msNs : ℤ := 1000000

def usNs : ℤ := 1000

namespace Timespec

structure Normal (t : Timespec) : Prop where
  nonneg : 0 ≤ t.tvNsec
  lt : t.tvNsec < secNs

instance (t : Timespec) : Decidable t.Normal :=
  decidable_of_iff (0 ≤ t.tvNsec ∧ t.tvNsec < secNs)
    ⟨fun ⟨nonneg, lt⟩ => ⟨nonneg, lt⟩, fun ⟨nonneg, lt⟩ => ⟨nonneg, lt⟩⟩

def toNs (t : Timespec) : ℤ := t.tvSec * secNs + t.tvNsec

/-- The loop `while (t.tv_nsec >= Sec<Ns>)`. -/
def carry (t : Timespec) : Timespec :=
  if secNs ≤ t.tvNsec then
    carry { tvSec := t.tvSec + 1, tvNsec := t.tvNsec - secNs }
  else
    t
termination_by t.tvNsec.toNat
decreasing_by simp only [secNs] at *; omega

@[simp] theorem toNs_carry (t : Timespec) : t.carry.toNs = t.toNs := by
  induction t using carry.induct with
  | case1 t late ih =>
      rw [carry, if_pos late, ih, toNs, toNs]
      ring
  | case2 t early => rw [carry, if_neg early]

theorem normal_carry {t : Timespec} (nonneg : 0 ≤ t.tvNsec) :
    t.carry.Normal := by
  induction t using carry.induct with
  | case1 t late ih =>
      rw [carry, if_pos late]
      exact ih (sub_nonneg.mpr late)
  | case2 t early =>
      rw [carry, if_neg early]
      exact ⟨nonneg, not_le.mp early⟩

theorem Normal.eq_of_toNs_eq {t other : Timespec} (normal : t.Normal)
    (otherNormal : other.Normal) (same : t.toNs = other.toNs) : t = other := by
  obtain ⟨nonneg, lt⟩ := normal
  obtain ⟨otherNonneg, otherLt⟩ := otherNormal
  simp only [toNs, secNs] at same lt otherLt
  have seconds : t.tvSec = other.tvSec := by omega
  have nanoseconds : t.tvNsec = other.tvNsec := by omega
  exact Timespec.ext seconds nanoseconds

end Timespec

def incTime (t : Timespec) (timeNs : ℤ) : Timespec :=
  Timespec.carry { t with tvNsec := t.tvNsec + timeNs }

/-- `sleep` called at `now`: the time it sleeps until. -/
def sleep (now : Timespec) (ns : ℤ) : Timespec := incTime now ns

def getTimeDuration (tStart tEnd : Timespec) : ℤ :=
  (tEnd.tvNsec - tStart.tvNsec) + (tEnd.tvSec - tStart.tvSec) * secNs

@[simp] theorem toNs_incTime (t : Timespec) (timeNs : ℤ) :
    (incTime t timeNs).toNs = t.toNs + timeNs := by
  rw [incTime, Timespec.toNs_carry, Timespec.toNs, Timespec.toNs]
  ring

theorem normal_incTime {t : Timespec} (normal : t.Normal) {timeNs : ℤ}
    (nonneg : 0 ≤ timeNs) : (incTime t timeNs).Normal :=
  Timespec.normal_carry (add_nonneg normal.nonneg nonneg)

theorem getTimeDuration_eq (tStart tEnd : Timespec) :
    getTimeDuration tStart tEnd = tEnd.toNs - tStart.toNs := by
  rw [getTimeDuration, Timespec.toNs, Timespec.toNs]
  ring

@[simp] theorem getTimeDuration_incTime (t : Timespec) (timeNs : ℤ) :
    getTimeDuration t (incTime t timeNs) = timeNs := by
  rw [getTimeDuration_eq, toNs_incTime, add_sub_cancel_left]

@[simp] theorem getTimeDuration_sleep (now : Timespec) (ns : ℤ) :
    getTimeDuration now (sleep now ns) = ns :=
  getTimeDuration_incTime now ns

theorem getTimeDuration_add (x y z : Timespec) :
    getTimeDuration x y + getTimeDuration y z = getTimeDuration x z := by
  rw [getTimeDuration_eq, getTimeDuration_eq, getTimeDuration_eq]
  ring

/-- Two increments are one, since the time they end at has one normal form. -/
theorem incTime_incTime {t : Timespec} (normal : t.Normal) {a b : ℤ}
    (first : 0 ≤ a) (second : 0 ≤ b) :
    incTime (incTime t a) b = incTime t (a + b) := by
  apply Timespec.Normal.eq_of_toNs_eq
  · exact normal_incTime (normal_incTime normal first) second
  · exact normal_incTime normal (add_nonneg first second)
  · rw [toNs_incTime, toNs_incTime, toNs_incTime, add_assoc]

theorem time_arithmetic {t : Timespec} (normal : t.Normal) {a b : ℤ}
    (first : 0 ≤ a) (second : 0 ≤ b) :
    (incTime t a).Normal ∧
      getTimeDuration t (incTime t a) = a ∧
      incTime (incTime t a) b = incTime t (a + b) ∧
      ∀ x y z : Timespec,
        getTimeDuration x y + getTimeDuration y z = getTimeDuration x z :=
  ⟨normal_incTime normal first, getTimeDuration_incTime t a,
    incTime_incTime normal first second, getTimeDuration_add⟩

/-- Three milliseconds from the last nanosecond of a second, then two seconds
and a half. -/
theorem time_arithmetic_across_seconds :
    let t : Timespec := ⟨5, 999999999⟩
    let early := incTime t 3000000
    early.Normal ∧
      getTimeDuration t early = 3000000 ∧
      incTime early 2500000000 = incTime t 2503000000 ∧
      getTimeDuration t early + getTimeDuration early ⟨8, 502999999⟩ =
        getTimeDuration t ⟨8, 502999999⟩ := by
  have normal : Timespec.Normal ⟨5, 999999999⟩ := by decide
  obtain ⟨result, exact, twice, whole⟩ :=
    time_arithmetic normal (a := 3000000) (b := 2500000000)
      (by decide) (by decide)
  exact ⟨result, exact, twice, whole _ _ _⟩

end RoboBand.Util
