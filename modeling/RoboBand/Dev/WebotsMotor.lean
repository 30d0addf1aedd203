import RoboBand.Data.Machine
import Mathlib.Algebra.Order.Field.Rat
import Mathlib.Tactic.LinearCombination
import Mathlib.Tactic.NormNum
import Mathlib.Tactic.Ring

namespace RoboBand.Dev

open RoboBand.Data

/-! A motor of the simulator, read over and over while the simulator's time
goes on and the offset of its angle is set anew. -/

/-- What `Webots::encoderGetValue` stores in its two references: after the
last step of the simulator, what they held before. -/
def encoderGetValue (now : ℤ) (reading : ℚ) (kept : ℚ × ℤ) : ℚ × ℤ :=
  if now ≠ -1 then (reading, now) else kept

structure WebotsMotor where
  dir : ℤ
  speed : ℚ
  angle : ℚ
  angleLast : ℚ
  angleOffset : ℚ
  timeLast : ℤ

/-- What a call of `update` meets: the simulator's time, the encoder's reading
and what lies where its two variables are put, which have no initialiser. -/
structure Sample where
  time : ℤ
  reading : ℚ
  memory : ℚ × ℤ

inductive MotorEvent where
  | update (sample : Sample)
  | setAngelOffset (angleOffset : ℚ)

namespace WebotsMotor

def new (dir : ℤ) : WebotsMotor where
  dir := dir
  speed := 0
  angle := 0
  angleLast := 0
  angleOffset := 0
  timeLast := 0

def setAngelOffset (motor : WebotsMotor) (angleOffset : ℚ) : WebotsMotor :=
  { motor with angleOffset := motor.dir * angleOffset }

def update (motor : WebotsMotor) (sample : Sample) : WebotsMotor :=
  let stored := encoderGetValue sample.time sample.reading sample.memory
  let time := stored.2
  let angleTmp := stored.1
  if time = motor.timeLast then motor
  else
    let angle := motor.dir * angleTmp - motor.angleOffset
    { motor with
      angle := angle
      speed := (angle - motor.angleLast) / (time - motor.timeLast : ℤ)
      timeLast := time
      angleLast := angle }

def next (motor : WebotsMotor) : MotorEvent → WebotsMotor
  | .update sample => motor.update sample
  | .setAngelOffset angleOffset => motor.setAngelOffset angleOffset

def machine : Machine WebotsMotor MotorEvent Empty where
  step motor event := (motor.next event, [])

def run (dir : ℤ) (events : List MotorEvent) : WebotsMotor :=
  machine.exec (new dir) events

end WebotsMotor

def sampleOf : MotorEvent → Option Sample
  | .update sample => some sample
  | .setAngelOffset _ => none

def times (events : List MotorEvent) : List ℤ :=
  (events.filterMap sampleOf).map Sample.time

/-- The simulator's time goes on from one update to the next.  It is a count of
milliseconds from the simulator's start. -/
structure Ticking (events : List MotorEvent) : Prop where
  increasing : (times events).Pairwise (· < ·)
  started : ∀ time ∈ times events, 0 ≤ time

theorem times_append (events later : List MotorEvent) :
    times (events ++ later) = times events ++ times later := by
  rw [times, List.filterMap_append, List.map_append, times, times]

theorem Ticking.earlier {events later : List MotorEvent} {sample : Sample}
    (ticking : Ticking (events ++ .update sample :: later)) :
    (∀ time ∈ times events, 0 ≤ time ∧ time < sample.time) ∧
      0 ≤ sample.time := by
  have increasing := ticking.increasing
  have started := ticking.started
  rw [times_append] at increasing started
  have here : sample.time ∈ times (.update sample :: later) :=
    List.mem_cons_self
  refine ⟨fun time member => ⟨?_, ?_⟩, ?_⟩
  · exact started time (List.mem_append_left _ member)
  · exact (List.pairwise_append.mp increasing).2.2 time member _ here
  · exact started _ (List.mem_append_right _ here)

def givenOffset (given : ℚ) : MotorEvent → ℚ
  | .update _ => given
  | .setAngelOffset angleOffset => angleOffset

/-- The offset in force: the last that was given, in the joint's direction. -/
def offsetAfter (dir : ℤ) (events : List MotorEvent) : ℚ :=
  dir * events.foldl givenOffset 0

theorem offsetAfter_concat (dir : ℤ) (events : List MotorEvent)
    (event : MotorEvent) :
    offsetAfter dir (events ++ [event]) =
      dir * givenOffset (events.foldl givenOffset 0) event := by
  rw [offsetAfter, List.foldl_append, List.foldl_cons, List.foldl_nil]

/-- A run up to an update and the offsets that are set after it. -/
def throughUpdate (before : List MotorEvent) (first : Sample)
    (offsets : List ℚ) : List MotorEvent :=
  before ++ .update first :: offsets.map .setAngelOffset

/-- The same run, and the next update. -/
def twoUpdates (before : List MotorEvent) (first : Sample)
    (offsets : List ℚ) (second : Sample) : List MotorEvent :=
  throughUpdate before first offsets ++ [.update second]

theorem Ticking.first {before : List MotorEvent} {first : Sample}
    {offsets : List ℚ} {second : Sample}
    (ticking : Ticking (twoUpdates before first offsets second)) :
    (∀ time ∈ times before, 0 ≤ time ∧ time < first.time) ∧
      0 ≤ first.time := by
  rw [twoUpdates, throughUpdate, List.append_assoc] at ticking
  exact ticking.earlier

theorem Ticking.follows {before : List MotorEvent} {first : Sample}
    {offsets : List ℚ} {second : Sample}
    (ticking : Ticking (twoUpdates before first offsets second)) :
    first.time < second.time := by
  refine (ticking.earlier.1 first.time ?_).2
  rw [throughUpdate, times_append]
  exact List.mem_append_right _ List.mem_cons_self

/-- The rate of the joint in radians per second. -/
def jointRate (dir : ℤ) (first second : Sample) : ℚ :=
  dir * (second.reading - first.reading) /
    ((second.time - first.time : ℤ) / 1000)

/-- An update at the time of the one before it changes nothing. -/
def Still (dir : ℤ) (before : List MotorEvent) (first : Sample)
    (offsets : List ℚ) : Prop :=
  ∀ again : Sample, again.time = first.time →
    (WebotsMotor.run dir (throughUpdate before first offsets)).update again =
      WebotsMotor.run dir (throughUpdate before first offsets)

structure SpeedSound (dir : ℤ) (before : List MotorEvent) (first : Sample)
    (offsets : List ℚ) (second : Sample) : Prop where
  rate : (WebotsMotor.run dir (twoUpdates before first offsets second)).speed =
    jointRate dir first second
  stillFirst : Still dir before first offsets
  stillSecond : Still dir (throughUpdate before first offsets) second []

namespace WebotsMotor

section Run

variable {dir : ℤ} {events : List MotorEvent} {motor : WebotsMotor}
  {sample : Sample}

theorem update_of_same (started : 0 ≤ sample.time)
    (same : sample.time = motor.timeLast) : motor.update sample = motor := by
  have valid : sample.time ≠ -1 := by omega
  simp only [update, encoderGetValue, if_pos valid, if_pos same]

theorem update_of_new (started : 0 ≤ sample.time)
    (new : sample.time ≠ motor.timeLast) :
    motor.update sample =
      { motor with
        angle := motor.dir * sample.reading - motor.angleOffset
        speed := (motor.dir * sample.reading - motor.angleOffset -
          motor.angleLast) / (sample.time - motor.timeLast : ℤ)
        timeLast := sample.time
        angleLast := motor.dir * sample.reading - motor.angleOffset } := by
  have valid : sample.time ≠ -1 := by omega
  simp only [update, encoderGetValue, if_pos valid, if_neg new]

theorem timeLast_update (started : 0 ≤ sample.time) :
    (motor.update sample).timeLast = sample.time := by
  by_cases same : sample.time = motor.timeLast
  · rw [update_of_same started same, same]
  · rw [update_of_new started same]

@[simp] theorem dir_update (motor : WebotsMotor) (sample : Sample) :
    (motor.update sample).dir = motor.dir := by
  simp only [update]
  split <;> rfl

@[simp] theorem angleOffset_update (motor : WebotsMotor) (sample : Sample) :
    (motor.update sample).angleOffset = motor.angleOffset := by
  simp only [update]
  split <;> rfl

/-- What the events so far have left in the motor.  Until the first update that
is taken it is as it was built. -/
structure Held (dir : ℤ) (events : List MotorEvent) (motor : WebotsMotor) :
    Prop where
  sameDir : motor.dir = dir
  inForce : motor.angleOffset = offsetAfter dir events
  updated : (∀ time ∈ times events, 0 ≤ time) →
    motor.timeLast = 0 ∧ motor.angleLast = 0 ∨ motor.timeLast ∈ times events

theorem Held.update (held : Held dir events motor) (sample : Sample) :
    Held dir (events ++ [.update sample]) (motor.update sample) where
  sameDir := (dir_update motor sample).trans held.sameDir
  inForce := by
    rw [angleOffset_update, held.inForce, offsetAfter_concat]
    rfl
  updated := fun started => by
    rw [times_append] at started ⊢
    have now : 0 ≤ sample.time :=
      started _ (List.mem_append_right _ List.mem_cons_self)
    rw [timeLast_update now]
    exact .inr (List.mem_append_right _ List.mem_cons_self)

theorem Held.setAngelOffset (held : Held dir events motor) (angleOffset : ℚ) :
    Held dir (events ++ [.setAngelOffset angleOffset])
      (motor.setAngelOffset angleOffset) where
  sameDir := held.sameDir
  inForce := by
    rw [offsetAfter_concat, ← held.sameDir]
    rfl
  updated := fun started => by
    rw [times_append] at started ⊢
    have earlier := held.updated fun time member =>
      started time (List.mem_append_left _ member)
    exact earlier.imp_right (List.mem_append_left _)

theorem held_run (dir : ℤ) (events : List MotorEvent) :
    Held dir events (run dir events) := by
  have initially : Held dir [] (new dir) :=
    ⟨rfl, (mul_zero _).symm, fun _ => .inl ⟨rfl, rfl⟩⟩
  refine Machine.exec_history initially ?_ events
  intro events motor event _ held
  cases event with
  | update sample => exact held.update sample
  | setAngelOffset angleOffset => exact held.setAngelOffset angleOffset

theorem run_concat (dir : ℤ) (events : List MotorEvent) (event : MotorEvent) :
    run dir (events ++ [event]) = (run dir events).next event :=
  machine.exec_append (new dir) events [event]

/-- An update at the start is dropped: the motor takes it for the one before. -/
theorem angleLast_update_run
    (earlier : ∀ time ∈ times events, 0 ≤ time ∧ time < sample.time)
    (now : 0 ≤ sample.time) :
    ((run dir events).update sample).angleLast =
      if sample.time = 0 then 0
      else dir * sample.reading - offsetAfter dir events := by
  have held := held_run dir events
  obtain ⟨zero, fresh⟩ | updated :=
    held.updated fun time member => (earlier time member).1
  · split
    case isTrue same => rw [update_of_same now (same.trans zero.symm), fresh]
    case isFalse later =>
        rw [update_of_new now (zero ▸ later), held.sameDir, held.inForce]
  · obtain ⟨nonneg, before⟩ := earlier _ updated
    rw [if_neg (nonneg.trans_lt before).ne', update_of_new now before.ne',
      held.sameDir, held.inForce]

theorem exec_setAngelOffset (motor : WebotsMotor) (offsets : List ℚ) :
    ∃ angleOffset, machine.exec motor (offsets.map .setAngelOffset) =
      { motor with angleOffset := angleOffset } := by
  induction offsets generalizing motor with
  | nil => exact ⟨motor.angleOffset, rfl⟩
  | cons offset offsets ih => exact ih (motor.setAngelOffset offset)

/-- Between two updates the motor keeps all but its offset. -/
theorem run_throughUpdate (dir : ℤ) (before : List MotorEvent)
    (first : Sample) (offsets : List ℚ) :
    ∃ angleOffset, run dir (throughUpdate before first offsets) =
      { (run dir before).update first with angleOffset := angleOffset } := by
  obtain ⟨angleOffset, kept⟩ := exec_setAngelOffset
    ((run dir before).update first) offsets
  refine ⟨angleOffset, ?_⟩
  rw [throughUpdate, run, Machine.exec_append]
  exact kept

theorem timeLast_throughUpdate (dir : ℤ) (before : List MotorEvent)
    {first : Sample} (offsets : List ℚ) (now : 0 ≤ first.time) :
    (run dir (throughUpdate before first offsets)).timeLast = first.time := by
  obtain ⟨angleOffset, met⟩ := run_throughUpdate dir before first offsets
  rw [met]
  exact timeLast_update now

theorem still_of_started (dir : ℤ) (before : List MotorEvent)
    {first : Sample} (offsets : List ℚ) (now : 0 ≤ first.time) :
    Still dir before first offsets := by
  intro again same
  refine update_of_same (same ▸ now) ?_
  rw [timeLast_throughUpdate dir before offsets now, same]

theorem speed_twoUpdates (dir : ℤ) {before : List MotorEvent}
    {first : Sample} {offsets : List ℚ} {second : Sample}
    (ticking : Ticking (twoUpdates before first offsets second)) :
    (run dir (twoUpdates before first offsets second)).speed =
      (dir * second.reading -
        offsetAfter dir (twoUpdates before first offsets second) -
        (if first.time = 0 then 0
          else dir * first.reading - offsetAfter dir before)) /
        (second.time - first.time : ℤ) := by
  obtain ⟨earlier, now⟩ := ticking.first
  have timeLast := timeLast_throughUpdate dir before offsets now
  have angleLast :
      (run dir (throughUpdate before first offsets)).angleLast =
        ((run dir before).update first).angleLast := by
    obtain ⟨angleOffset, met⟩ := run_throughUpdate dir before first offsets
    rw [met]
  have inForce : offsetAfter dir (twoUpdates before first offsets second) =
      offsetAfter dir (throughUpdate before first offsets) := by
    rw [twoUpdates, offsetAfter_concat, givenOffset, offsetAfter]
  rw [inForce, twoUpdates, run_concat, next,
    update_of_new ticking.earlier.2 (timeLast ▸ ticking.follows.ne')]
  have held := held_run dir (throughUpdate before first offsets)
  dsimp only
  rw [held.inForce, held.sameDir, timeLast, angleLast,
    angleLast_update_run earlier now]

end Run

end WebotsMotor

/-- The speed is the joint's rate where the change of the offset makes up for
the unit, which is that of the simulator's time.  A first update at the time
zero leaves the angle before it at zero, and the offset enters whole. -/
theorem speedSound_iff (dir : ℤ) (before : List MotorEvent) (first : Sample)
    (offsets : List ℚ) (second : Sample)
    (ticking : Ticking (twoUpdates before first offsets second)) :
    SpeedSound dir before first offsets second ↔
      if first.time = 0 then
        dir * second.reading -
            offsetAfter dir (twoUpdates before first offsets second) =
          1000 * (dir * (second.reading - first.reading))
      else
        offsetAfter dir before -
            offsetAfter dir (twoUpdates before first offsets second) =
          999 * (dir * (second.reading - first.reading)) := by
  have elapsed : ((second.time - first.time : ℤ) : ℚ) ≠ 0 :=
    Int.cast_ne_zero.mpr (sub_pos.mpr ticking.follows).ne'
  have rate : SpeedSound dir before first offsets second ↔
      (WebotsMotor.run dir (twoUpdates before first offsets second)).speed =
        jointRate dir first second :=
    ⟨SpeedSound.rate, fun rate => ⟨rate,
      WebotsMotor.still_of_started dir before offsets ticking.first.2,
      WebotsMotor.still_of_started dir _ [] ticking.earlier.2⟩⟩
  rw [rate, WebotsMotor.speed_twoUpdates dir ticking, jointRate,
    div_div_eq_mul_div, div_left_inj' elapsed]
  split
  case isTrue start =>
      rw [sub_zero, mul_comm _ (1000 : ℚ)]
  case isFalse =>
      constructor
      · intro same
        linear_combination same
      · intro cancels
        linear_combination cancels

/-- The offset takes back what a millisecond is short of a second. -/
theorem speedSound_of_offset : SpeedSound 1 [] ⟨32, 0, 0, 0⟩ [-999]
    ⟨64, 1, 0, 0⟩ :=
  (speedSound_iff 1 [] ⟨32, 0, 0, 0⟩ [-999] ⟨64, 1, 0, 0⟩
    ⟨by decide, by decide⟩).mpr (by
      rw [if_neg (by decide)]
      norm_num [offsetAfter, twoUpdates, throughUpdate, givenOffset])

/-- A joint that turns at one radian per second for 32 milliseconds. -/
theorem not_speedSound_turning :
    Ticking (twoUpdates [] ⟨32, 0, 0, 0⟩ [] ⟨64, 4 / 125, 0, 0⟩) ∧
      ¬ SpeedSound 1 [] ⟨32, 0, 0, 0⟩ [] ⟨64, 4 / 125, 0, 0⟩ := by
  refine ⟨⟨by decide, by decide⟩, fun sound => ?_⟩
  have rate := sound.rate
  have reported : (WebotsMotor.run 1 (twoUpdates [] ⟨32, 0, 0, 0⟩ []
      ⟨64, 4 / 125, 0, 0⟩)).speed = 1 / 1000 := by
    decide +kernel
  rw [reported, jointRate] at rate
  norm_num at rate

end RoboBand.Dev
