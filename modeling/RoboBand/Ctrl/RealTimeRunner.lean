import RoboBand.Data.Machine
import RoboBand.Util.Time

namespace RoboBand.Ctrl

open RoboBand.Data RoboBand.Util

/-! `Runner::thread_func` of the build for the real robot.  `period` is the
cycle time in nanoseconds. -/

/-- What the clock shows before and after the task of one iteration. -/
structure Readings where
  tStart : Timespec
  tNow : Timespec

/-- What the iteration makes of `t_set`.  The time the task took is only
logged. -/
def wakeUp (period : ℤ) (tSet : Timespec) (readings : Readings) : Timespec :=
  let tSet := incTime tSet period
  let tRemain := getTimeDuration readings.tNow tSet
  if tRemain ≤ 0 then
    let tTotal := period - tRemain
    incTime tSet tTotal
  else
    tSet

/-- The loop, with the wake-up times that it passes to `clock_nanosleep`. -/
def realTimeRunner (period : ℤ) : Machine Timespec Readings Timespec where
  step tSet readings :=
    let tSet := wakeUp period tSet readings
    (tSet, [tSet])

@[simp] theorem realTimeRunner_step (period : ℤ) (tSet : Timespec)
    (readings : Readings) :
    (realTimeRunner period).step tSet readings =
      (wakeUp period tSet readings, [wakeUp period tSet readings]) := rfl

/-- The sleep is over no earlier than it was asked to be, and the clock does
not go back. -/
structure ClockAllowed (tSet : Timespec) (readings : Readings) : Prop where
  awake : tSet.toNs ≤ readings.tStart.toNs
  forward : readings.tStart.toNs ≤ readings.tNow.toNs

instance (tSet : Timespec) (readings : Readings) :
    Decidable (ClockAllowed tSet readings) :=
  decidable_of_iff (tSet.toNs ≤ readings.tStart.toNs ∧
      readings.tStart.toNs ≤ readings.tNow.toNs)
    ⟨fun ⟨awake, forward⟩ => ⟨awake, forward⟩,
      fun ⟨awake, forward⟩ => ⟨awake, forward⟩⟩

/-- At the end of the task nothing is left of the cycle. -/
def Overran (period : ℤ) (tSet : Timespec) (readings : Readings) : Prop :=
  tSet.toNs + period ≤ readings.tNow.toNs

instance (period : ℤ) (tSet : Timespec) (readings : Readings) :
    Decidable (Overran period tSet readings) :=
  inferInstanceAs (Decidable (_ ≤ _))

theorem toNs_wakeUp (period : ℤ) (tSet : Timespec) (readings : Readings) :
    (wakeUp period tSet readings).toNs =
      if Overran period tSet readings then readings.tNow.toNs + period
      else tSet.toNs + period := by
  have remaining : getTimeDuration readings.tNow (incTime tSet period) ≤ 0 ↔
      Overran period tSet readings := by
    rw [getTimeDuration_eq, toNs_incTime, sub_nonpos, Overran]
  simp only [wakeUp, remaining]
  split
  · -- the deadline already advanced by one cycle, less what remained of it
    rw [toNs_incTime, toNs_incTime, getTimeDuration_eq, toNs_incTime]
    ring
  · rw [toNs_incTime]

theorem normal_wakeUp {period : ℤ} (positive : 0 < period) {tSet : Timespec}
    (normal : tSet.Normal) (readings : Readings) :
    (wakeUp period tSet readings).Normal := by
  have advanced : (incTime tSet period).Normal :=
    normal_incTime normal positive.le
  simp only [wakeUp]
  split
  · rename_i late
    exact normal_incTime advanced (by omega)
  · exact advanced

theorem exec_normal {period : ℤ} (positive : 0 < period) {start : Timespec}
    (normal : start.Normal) (readings : List Readings) :
    ((realTimeRunner period).exec start readings).Normal := by
  have kept : ∀ (tSet : Timespec) (reading : Readings), tSet.Normal →
      ((realTimeRunner period).step tSet reading).1.Normal :=
    fun _ reading tSetNormal => normal_wakeUp positive tSetNormal reading
  exact Machine.exec_invariant kept normal readings

/-- What one iteration does to the wake-up time. -/
structure Scheduled (period : ℤ) (tSet : Timespec) (readings : Readings)
    (next : Timespec) : Prop where
  later : readings.tNow.toNs < next.toNs
  soon : next.toNs ≤ readings.tNow.toNs + period
  apart : tSet.toNs + period ≤ next.toNs
  onTime : ¬ Overran period tSet readings → next.toNs = tSet.toNs + period
  overran : Overran period tSet readings →
    next.toNs = readings.tNow.toNs + period
  normal : next.Normal

theorem scheduled_wakeUp {period : ℤ} (positive : 0 < period)
    {tSet : Timespec} (normal : tSet.Normal) {readings : Readings}
    (allowed : ClockAllowed tSet readings) :
    Scheduled period tSet readings (wakeUp period tSet readings) := by
  have next := toNs_wakeUp period tSet readings
  have reached : tSet.toNs ≤ readings.tNow.toNs :=
    allowed.awake.trans allowed.forward
  have nextNormal := normal_wakeUp positive normal readings
  by_cases overran : Overran period tSet readings
  · rw [if_pos overran] at next
    have late : tSet.toNs + period ≤ readings.tNow.toNs := overran
    exact {
      later := by omega
      soon := by omega
      apart := by omega
      onTime := fun inTime => absurd overran inTime
      overran := fun _ => next
      normal := nextNormal }
  · rw [if_neg overran] at next
    have early : readings.tNow.toNs < tSet.toNs + period := not_le.mp overran
    exact {
      later := by omega
      soon := by omega
      apart := by omega
      onTime := fun _ => next
      overran := fun late => absurd late overran
      normal := nextNormal }

/-- Without overruns the wake-up times do not drift. -/
theorem exec_onTime {period : ℤ} {start : Timespec} {readings : List Readings}
    (inTime : (realTimeRunner period).Admits
      (fun tSet reading => ¬ Overran period tSet reading) start readings) :
    ((realTimeRunner period).exec start readings).toNs =
      start.toNs + readings.length * period := by
  induction readings generalizing start with
  | nil => simp
  | cons reading rest ih =>
      obtain ⟨here, later⟩ := inTime
      rw [Machine.exec_cons, ih later, realTimeRunner_step, toNs_wakeUp,
        if_neg here, List.length_cons]
      push_cast
      ring

theorem realTimeRunner_keeps_schedule {period : ℤ} (positive : 0 < period)
    {start : Timespec} (normal : start.Normal) {readings : List Readings}
    (allowed : (realTimeRunner period).Admits ClockAllowed start readings) :
    (∀ before reading after, readings = before ++ reading :: after →
      Scheduled period ((realTimeRunner period).exec start before) reading
        ((realTimeRunner period).exec start (before ++ [reading]))) ∧
      ((realTimeRunner period).Admits
          (fun tSet reading => ¬ Overran period tSet reading) start readings →
        ((realTimeRunner period).exec start readings).toNs =
          start.toNs + readings.length * period) := by
  refine ⟨?_, exec_onTime⟩
  rintro before reading after rfl
  obtain ⟨_, here, _⟩ := (Machine.admits_append _ _ _ _ _).mp allowed
  rw [Machine.exec_append]
  exact scheduled_wakeUp positive (exec_normal positive normal before) here

/-- A cycle of 5 ms; the second task takes more than two seconds. -/
theorem realTimeRunner_keeps_schedule_late :
    Scheduled (5 * msNs) ⟨3, 3000000⟩ ⟨⟨3, 3000000⟩, ⟨5, 500000000⟩⟩
      ⟨5, 505000000⟩ := by
  have allowed : (realTimeRunner (5 * msNs)).Admits ClockAllowed
      ⟨2, 998000000⟩ [⟨⟨2, 998000000⟩, ⟨2, 999000000⟩⟩,
        ⟨⟨3, 3000000⟩, ⟨5, 500000000⟩⟩] := by
    decide +kernel
  have scheduled := (realTimeRunner_keeps_schedule (by decide) (by decide)
    allowed).1 [⟨⟨2, 998000000⟩, ⟨2, 999000000⟩⟩] _ [] rfl
  have onTime : (realTimeRunner (5 * msNs)).exec ⟨2, 998000000⟩
      [⟨⟨2, 998000000⟩, ⟨2, 999000000⟩⟩] = ⟨3, 3000000⟩ := by
    decide +kernel
  have late : (realTimeRunner (5 * msNs)).exec ⟨2, 998000000⟩
      ([⟨⟨2, 998000000⟩, ⟨2, 999000000⟩⟩] ++
        [⟨⟨3, 3000000⟩, ⟨5, 500000000⟩⟩]) = ⟨5, 505000000⟩ := by
    decide +kernel
  rwa [onTime, late] at scheduled

end RoboBand.Ctrl
