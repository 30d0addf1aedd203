import Mathlib.Data.Fintype.Card

namespace RoboBand.Data

/-! A barrier for a fixed number of participants.  Whoever arrives holds the
number of the phase and waits until the phase is over; the last arrival ends
it and opens the next. -/

structure Barrier where
  expected : ℕ
  arrived : ℕ
  phase : ℕ
  deriving DecidableEq

namespace Barrier

def new (expected : ℕ) : Barrier where
  expected := expected
  arrived := 0
  phase := 0

def arrive (barrier : Barrier) : Barrier :=
  if barrier.arrived + 1 = barrier.expected then
    { barrier with arrived := 0, phase := barrier.phase + 1 }
  else
    { barrier with arrived := barrier.arrived + 1 }

theorem arrive_last {barrier : Barrier}
    (last : barrier.arrived + 1 = barrier.expected) :
    barrier.arrive =
      { barrier with arrived := 0, phase := barrier.phase + 1 } :=
  if_pos last

theorem arrive_early {barrier : Barrier}
    (early : barrier.arrived + 1 ≠ barrier.expected) :
    barrier.arrive = { barrier with arrived := barrier.arrived + 1 } :=
  if_neg early

section Participants

/-! The number of arrivals is that of the participants who wait for the
current phase to end. -/

variable {Participant : Type*} [Fintype Participant]

def waitersOf (waiting : Participant → Option ℕ) (phase : ℕ) :
    Finset Participant :=
  {who | waiting who = some phase}

structure Tally (barrier : Barrier) (waiting : Participant → Option ℕ) :
    Prop where
  expected : barrier.expected = Fintype.card Participant
  arrived : barrier.arrived = (waitersOf waiting barrier.phase).card
  opened : ∀ who token, waiting who = some token → token ≤ barrier.phase

variable {barrier : Barrier} {waiting : Participant → Option ℕ}
  {who : Participant}

theorem mem_waitersOf {phase : ℕ} :
    who ∈ waitersOf waiting phase ↔ waiting who = some phase := by
  simp [waitersOf]

theorem tally_new {expected : ℕ}
    (everyone : expected = Fintype.card Participant)
    (nobody : ∀ who, waiting who = none) :
    Tally (new expected) waiting where
  expected := everyone
  arrived := by
    have empty : waitersOf waiting (new expected).phase = ∅ :=
      Finset.filter_eq_empty_iff.mpr fun who _ same =>
        nomatch (nobody who).symm.trans same
    rw [empty]
    rfl
  opened := fun who token same => nomatch (nobody who).symm.trans same

variable [DecidableEq Participant]

theorem waitersOf_join (phase : ℕ) :
    waitersOf (Function.update waiting who (some phase)) phase =
      insert who (waitersOf waiting phase) := by
  ext other
  rw [Finset.mem_insert, mem_waitersOf, mem_waitersOf, Function.update_apply]
  split
  · simp_all
  · simp_all

theorem waitersOf_leave {phase : ℕ} (later : waiting who ≠ some phase) :
    waitersOf (Function.update waiting who none) phase =
      waitersOf waiting phase := by
  ext other
  rw [mem_waitersOf, mem_waitersOf, Function.update_apply]
  split
  · simp_all
  · rfl

/-- The last arrival is that of the only participant still missing. -/
theorem Tally.others_wait (tally : Tally barrier waiting)
    (last : barrier.arrived + 1 = barrier.expected)
    (missing : waiting who = none) (other : Participant)
    (distinct : other ≠ who) : waiting other = some barrier.phase := by
  have absent : who ∉ waitersOf waiting barrier.phase := fun member =>
    nomatch missing.symm.trans (mem_waitersOf.mp member)
  have full : (insert who (waitersOf waiting barrier.phase)).card =
      Fintype.card Participant := by
    rw [Finset.card_insert_of_notMem absent, ← tally.arrived, last,
      tally.expected]
  have everyone := Finset.card_eq_iff_eq_univ _ |>.mp full
  have member : other ∈ insert who (waitersOf waiting barrier.phase) :=
    everyone ▸ Finset.mem_univ other
  exact mem_waitersOf.mp (Finset.mem_of_mem_insert_of_ne member distinct)

theorem Tally.opened_join (tally : Tally barrier waiting)
    (other : Participant) (token : ℕ)
    (same : Function.update waiting who (some barrier.phase) other =
      some token) : token ≤ barrier.phase := by
  rw [Function.update_apply] at same
  split at same
  · exact (Option.some.inj same).ge
  · exact tally.opened other token same

theorem Tally.arrive (tally : Tally barrier waiting)
    (missing : waiting who = none) :
    Tally barrier.arrive
      (Function.update waiting who (some barrier.phase)) := by
  by_cases last : barrier.arrived + 1 = barrier.expected
  · rw [arrive_last last]
    refine ⟨tally.expected, ?_, fun other token same =>
      (tally.opened_join other token same).trans (Nat.le_succ _)⟩
    refine (Finset.card_eq_zero.mpr ?_).symm
    refine Finset.filter_eq_empty_iff.mpr fun other _ same => ?_
    exact Nat.not_succ_le_self _ (tally.opened_join other _ same)
  · rw [arrive_early last]
    refine ⟨tally.expected, ?_, tally.opened_join⟩
    have absent : who ∉ waitersOf waiting barrier.phase := fun member =>
      nomatch missing.symm.trans (mem_waitersOf.mp member)
    rw [waitersOf_join, Finset.card_insert_of_notMem absent, tally.arrived]

theorem Tally.leave (tally : Tally barrier waiting)
    (passed : waiting who ≠ some barrier.phase) :
    Tally barrier (Function.update waiting who none) where
  expected := tally.expected
  arrived := by rw [waitersOf_leave passed, tally.arrived]
  opened := fun other token same => by
    rw [Function.update_apply] at same
    split at same
    · exact nomatch same
    · exact tally.opened other token same

end Participants

end Barrier

end RoboBand.Data
