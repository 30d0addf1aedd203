import RoboBand.Data.Packed
import RoboBand.Util.Time
import Mathlib.Tactic.Linarith

namespace RoboBand.Io

open RoboBand.Data RoboBand.Util

/-- The values of `speed_t` that `termios.h` has a name for, and the others.
The constructor of the port does not test which it is given. -/
inductive Speed where
  | b0 | b50 | b75 | b110 | b134 | b150 | b200 | b300 | b600 | b1200
  | b1800 | b2400 | b4800 | b9600 | b19200 | b38400 | b57600 | b115200
  | b230400 | b460800 | b500000 | b576000 | b921600 | b1000000 | b1152000
  | b1500000 | b2000000 | b2500000 | b3000000 | b3500000 | b4000000
  | other (code : ℕ)
  deriving DecidableEq

/-- How `Serial::send` ends.  An integer division by zero has no defined end. -/
inductive Sending where
  | failed
  | done (wakeUp : Timespec)
  | trapped
  deriving DecidableEq

namespace Serial

def baudrate : Speed → ℤ
  | .b0 => 0
  | .b50 => 50
  | .b75 => 75
  | .b110 => 110
  | .b134 => 134
  | .b150 => 150
  | .b200 => 200
  | .b300 => 300
  | .b600 => 600
  | .b1200 => 1200
  | .b1800 => 1800
  | .b2400 => 2400
  | .b4800 => 4800
  | .b9600 => 9600
  | .b19200 => 19200
  | .b38400 => 38400
  | .b57600 => 57600
  | .b115200 => 115200
  | .b230400 => 230400
  | .b460800 => 460800
  | .b500000 => 500000
  | .b576000 => 576000
  | .b921600 => 921600
  | .b1000000 => 1000000
  | .b1152000 => 1152000
  | .b1500000 => 1500000
  | .b2000000 => 2000000
  | .b2500000 => 2500000
  | .b3000000 => 3000000
  | .b3500000 => 3500000
  | .b4000000 => 4000000
  | .other _ => -1

/-- A division of integers. -/
def divide (dividend divisor : ℤ) : Option ℤ :=
  if divisor = 0 then none else some (dividend.tdiv divisor)

def pauseNs (speed : Speed) (len : ℕ) (sleepUs : ℤ) : Option ℤ :=
  if sleepUs = -1 then divide (len * secNs) (baudrate speed)
  else some (sleepUs * usNs)

/-- `ret` is what `::write` makes of the message, and `now` the time then. -/
def send (speed : Speed) (message : List Byte) (ret sleepUs : ℤ)
    (now : Timespec) : Sending :=
  if ret < 0 then .failed
  else
    match pauseNs speed message.length sleepUs with
    | none => .trapped
    | some pause => .done (sleep now pause)

/-- The bits of a byte on the line: a start bit, eight of data, a stop bit. -/
def byteBits : ℤ := 10

/-- The line needs `byteBits * len / baudrate` seconds. -/
structure SendSound (speed : Speed) (message : List Byte)
    (ret sleepUs : ℤ) (now : Timespec) : Prop where
  whole : ∀ wakeUp, send speed message ret sleepUs now = .done wakeUp →
    ret = message.length
  paced : 0 ≤ ret → sleepUs = -1 → ∃ wakeUp,
    send speed message ret sleepUs now = .done wakeUp ∧
      0 ≤ getTimeDuration now wakeUp ∧
      byteBits * message.length * secNs ≤
        getTimeDuration now wakeUp * baudrate speed

section Send

variable {speed : Speed} {message : List Byte} {ret sleepUs : ℤ}
  {now : Timespec}

theorem baudrate_cases (speed : Speed) :
    speed = .b0 ∧ baudrate speed = 0 ∨
      speed ≠ .b0 ∧ (0 < baudrate speed ∨ baudrate speed = -1) := by
  cases speed with
  | b0 => exact .inl ⟨rfl, rfl⟩
  | other code => exact .inr ⟨Speed.noConfusion, .inr rfl⟩
  | _ => exact .inr ⟨by decide, .inl (by decide)⟩

theorem pauseNs_b0 (len : ℕ) : pauseNs .b0 len (-1) = none := rfl

theorem pauseNs_default (usable : speed ≠ .b0) (len : ℕ) :
    pauseNs speed len (-1) =
      some ((len * secNs).tdiv (baudrate speed)) := by
  obtain ⟨rfl, _⟩ | ⟨_, fast | unlisted⟩ := baudrate_cases speed
  · exact absurd rfl usable
  · rw [pauseNs, if_pos rfl, divide, if_neg fast.ne']
  · rw [pauseNs, if_pos rfl, divide, unlisted, if_neg (by decide)]

/-- The pause is the time of `len` bits: a byte counts as one. -/
theorem pause_mul_baudrate_le (usable : speed ≠ .b0) (len : ℕ) :
    (len * secNs).tdiv (baudrate speed) * baudrate speed ≤ len * secNs := by
  have length : 0 ≤ len * secNs :=
    mul_nonneg (Int.natCast_nonneg len) (by decide)
  obtain ⟨rfl, _⟩ | ⟨_, fast | unlisted⟩ := baudrate_cases speed
  · exact absurd rfl usable
  · rw [Int.tdiv_eq_ediv_of_nonneg length]
    exact Int.ediv_mul_le _ fast.ne'
  · rw [unlisted, Int.tdiv_neg, Int.tdiv_one, neg_mul_neg, mul_one]

theorem send_of_written (written : 0 ≤ ret) :
    send speed message ret sleepUs now =
      match pauseNs speed message.length sleepUs with
      | none => .trapped
      | some pause => .done (sleep now pause) :=
  if_neg (not_lt.mpr written)

theorem send_default (written : 0 ≤ ret) (usable : speed ≠ .b0) :
    send speed message ret (-1) now =
      .done (sleep now ((message.length * secNs).tdiv (baudrate speed))) := by
  rw [send_of_written written, pauseNs_default usable]

theorem send_given (written : 0 ≤ ret) (given : sleepUs ≠ -1) :
    send speed message ret sleepUs now =
      .done (sleep now (sleepUs * usNs)) := by
  rw [send_of_written written, pauseNs, if_neg given]

theorem sendSound_of_failed (failed : ret < 0) :
    SendSound speed message ret sleepUs now where
  whole _ done := by rw [send, if_pos failed] at done; cases done
  paced written := absurd failed (not_lt.mpr written)

/-- Nothing is long enough for a message that the line has to carry. -/
theorem empty_of_paced (usable : speed ≠ .b0) (len : ℕ)
    (paced : byteBits * len * secNs ≤
      (len * secNs).tdiv (baudrate speed) * baudrate speed) : len = 0 := by
  have bound := paced.trans (pause_mul_baudrate_le usable len)
  simp only [byteBits, secNs] at bound
  omega

end Send

/-- The pause takes a byte for a bit, whatever part of the message the port
has taken is the whole of it, and not every speed has a pause. -/
theorem sendSound_iff (speed : Speed) (message : List Byte)
    (ret sleepUs : ℤ) (now : Timespec) :
    SendSound speed message ret sleepUs now ↔
      ret < 0 ∨ ret = message.length ∧
        (sleepUs = -1 → message = [] ∧ speed ≠ .b0) := by
  constructor
  · intro sound
    by_cases failed : ret < 0
    · exact .inl failed
    have written := not_lt.mp failed
    by_cases default : sleepUs = -1
    · subst default
      obtain ⟨wakeUp, done, _, paced⟩ := sound.paced written rfl
      have usable : speed ≠ .b0 := by
        rintro rfl
        rw [send_of_written written, pauseNs_b0] at done
        cases done
      refine .inr ⟨sound.whole wakeUp done, fun _ => ⟨?_, usable⟩⟩
      rw [send_default written usable] at done
      cases done
      rw [getTimeDuration_sleep] at paced
      exact List.length_eq_zero_iff.mp (empty_of_paced usable _ paced)
    · exact .inr ⟨sound.whole _ (send_given written default),
        fun same => absurd same default⟩
  · rintro (failed | ⟨whole, default⟩)
    · exact sendSound_of_failed failed
    refine ⟨fun _ _ => whole, fun written same => ?_⟩
    subst same
    obtain ⟨rfl, usable⟩ := default rfl
    refine ⟨_, send_default written usable, ?_⟩
    simp

/-- A whole frame at 4 Mbaud: the line is busy for 40 microseconds, and the
pause is over after four.  A port that takes five bytes of it is no failure. -/
theorem not_sendSound_frame :
    ¬ SendSound .b4000000 (List.replicate 16 0) 16 (-1) ⟨0, 0⟩ ∧
      ¬ SendSound .b4000000 (List.replicate 16 0) 5 0 ⟨0, 0⟩ := by
  constructor
  · intro sound
    obtain ⟨wakeUp, done, _, paced⟩ := sound.paced (by decide) rfl
    rw [send_default (by decide) (by decide)] at done
    cases done
    rw [getTimeDuration_sleep] at paced
    exact absurd paced (by decide)
  · intro sound
    exact absurd (sound.whole _ (send_given (by decide) (by decide)))
      (by decide)

end Serial

end RoboBand.Io
