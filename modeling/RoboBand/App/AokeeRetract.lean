import RoboBand.App.Aokee

namespace RoboBand.App

open RoboBand.Data RoboBand.Dev RoboBand.Util

/-! When the control loop of `devInit` ends.  An iteration is given by the
speeds that its stop test reads. -/

/-- Where one test is harder than another, they are first met together if the
harder is met where the other first is. -/
theorem isLeast_iff_isLeast_iff {hard easy : ℕ → Prop}
    (implies : ∀ k, hard k → easy k) :
    (∀ k, IsLeast {k | hard k} k ↔ IsLeast {k | easy k} k) ↔
      ∀ k, IsLeast {k | easy k} k → hard k := by
  constructor
  · exact fun same k first => ((same k).mpr first).1
  · intro met k
    constructor
    · rintro ⟨here, first⟩
      obtain ⟨least, leastMet, below⟩ :
          ∃ least, easy least ∧ ∀ j, easy j → least ≤ j := by
        classical
        exact ⟨Nat.find ⟨k, implies k here⟩, Nat.find_spec _,
          fun j => Nat.find_min' _⟩
      have same : least = k := by
        refine le_antisymm (below k (implies k here)) (first ?_)
        exact met least ⟨leastMet, fun j => below j⟩
      exact same ▸ ⟨leastMet, fun j => below j⟩
    · intro first
      exact ⟨met k first, fun j here => first.2 (implies j here)⟩

/-- What the test of a joint makes of the flag `stopped`. -/
def stopTest (config : AokeeConfig) (speeds : Fin 4 → ℚ) (stopped : Bool)
    (joint : Fin 4) : Bool :=
  if config.motorStopSpeed < Util.abs (speeds joint) then false else stopped

inductive Pass where
  | leaves
  | again (t : Int32)
  /-- The sum does not fit an `int`. -/
  | overflows

def Pass.again? : Pass → Option Int32
  | .again t => some t
  | .leaves | .overflows => none

theorem Pass.eq_again {pass : Pass} {t : Int32} (again : pass.again? = some t) :
    pass = .again t := by
  cases pass with
  | leaves => cases again
  | again t =>
      cases again
      rfl
  | overflows => cases again

/-- `t += RETRACT_CTRL_CYCLE_MS`. -/
def goOn (config : AokeeConfig) (t : Int32) : Pass :=
  if FitsInt (truncate (t.toInt + config.retractCtrlCycleMs)) then
    .again (toInt (t.toInt + config.retractCtrlCycleMs))
  else
    .overflows

/-- One iteration of the loop. -/
def retractPass (config : AokeeConfig) (t : Int32) (speeds : Fin 4 → ℚ) :
    Pass :=
  if config.retractTimeMinMs < t.toInt then
    if (List.finRange 4).foldl (stopTest config speeds) true then .leaves
    else goOn config t
  else
    goOn config t

/-- `t` at the top of an iteration, if the loop gets there. -/
def retractLoop (config : AokeeConfig) (speeds : ℕ → Fin 4 → ℚ) :
    ℕ → Option Int32
  | 0 => some 0
  | k + 1 =>
      (retractLoop config speeds k).bind fun t =>
        (retractPass config t (speeds k)).again?

def LeavesAt (config : AokeeConfig) (speeds : ℕ → Fin 4 → ℚ) (k : ℕ) :
    Prop :=
  ∃ t, retractLoop config speeds k = some t ∧
    retractPass config t (speeds k) = .leaves

def AtRest (config : AokeeConfig) (speeds : Fin 4 → ℚ) : Prop :=
  ∀ joint, |speeds joint| ≤ config.motorStopSpeed

/-- The joints are at rest, and more than the least time has gone by. -/
def Due (config : AokeeConfig) (speeds : ℕ → Fin 4 → ℚ) (k : ℕ) : Prop :=
  config.retractTimeMinMs < k * config.retractCtrlCycleMs ∧
    AtRest config (speeds k)

/-- What the loop has counted in so many iterations. -/
def counted (config : AokeeConfig) (k : ℕ) : ℤ :=
  k * ⌊config.retractCtrlCycleMs⌋

/-- As `Due`, by the time that the loop has counted. -/
def Tested (config : AokeeConfig) (speeds : ℕ → Fin 4 → ℚ) (k : ℕ) : Prop :=
  (config.retractTimeMinMs < counted config k ∧ FitsInt (counted config k)) ∧
    AtRest config (speeds k)

section Loop

variable {config : AokeeConfig} {speeds : ℕ → Fin 4 → ℚ}

theorem foldl_stopTest_eq_true_iff (config : AokeeConfig)
    (speeds : Fin 4 → ℚ) (joints : List (Fin 4)) :
    joints.foldl (stopTest config speeds) true = true ↔
      ∀ joint ∈ joints, |speeds joint| ≤ config.motorStopSpeed := by
  induction joints using List.reverseRecOn with
  | nil => simp
  | append_singleton joints joint ih =>
      rw [List.foldl_append, List.foldl_cons, List.foldl_nil, stopTest, abs_eq,
        List.forall_mem_append, List.forall_mem_singleton]
      by_cases moving : config.motorStopSpeed < |speeds joint|
      · rw [if_pos moving]
        exact iff_of_false Bool.false_ne_true
          fun still => moving.not_ge still.2
      · rw [if_neg moving, ih]
        exact (and_iff_left (not_lt.mp moving)).symm

theorem stopped_iff_atRest (config : AokeeConfig) (speeds : Fin 4 → ℚ) :
    (List.finRange 4).foldl (stopTest config speeds) true = true ↔
      AtRest config speeds := by
  rw [foldl_stopTest_eq_true_iff, AtRest]
  exact forall_congr' fun joint => imp_iff_right (List.mem_finRange joint)

theorem counted_mono (cycle : 0 ≤ config.retractCtrlCycleMs) {j k : ℕ}
    (before : j ≤ k) : counted config j ≤ counted config k :=
  mul_le_mul_of_nonneg_right (by exact_mod_cast before)
    (Int.floor_nonneg.mpr cycle)

theorem counted_nonneg (cycle : 0 ≤ config.retractCtrlCycleMs) (k : ℕ) :
    0 ≤ counted config k :=
  mul_nonneg (Int.natCast_nonneg k) (Int.floor_nonneg.mpr cycle)

theorem fitsInt_of_le {few many : ℤ} (nonneg : 0 ≤ few) (fewer : few ≤ many)
    (fits : FitsInt many) : FitsInt few :=
  ⟨(by decide : (-2147483648 : ℤ) ≤ 0).trans nonneg, fewer.trans_lt fits.2⟩

theorem truncate_sum (cycle : 0 ≤ config.retractCtrlCycleMs) (k : ℕ) :
    truncate ((counted config k : ℚ) + config.retractCtrlCycleMs) =
      counted config (k + 1) := by
  have nonneg : (0 : ℚ) ≤ counted config k := by
    exact_mod_cast counted_nonneg cycle k
  rw [truncate_of_nonneg (add_nonneg nonneg cycle), Int.floor_intCast_add,
    counted, counted, Nat.cast_succ, add_one_mul]

theorem goOn_ne_leaves (config : AokeeConfig) (t : Int32) :
    goOn config t ≠ .leaves := by
  unfold goOn
  split
  · exact Pass.noConfusion
  · exact Pass.noConfusion

theorem goOn_eq (cycle : 0 ≤ config.retractCtrlCycleMs) {k : ℕ} {t : Int32}
    (time : t.toInt = counted config k) :
    (∃ next, goOn config t = .again next ∧
        next.toInt = counted config (k + 1) ∧
        FitsInt (counted config (k + 1))) ∨
      goOn config t = .overflows ∧ ¬ FitsInt (counted config (k + 1)) := by
  have sum := truncate_sum cycle k
  rw [← time] at sum
  rw [goOn, sum]
  by_cases later : FitsInt (counted config (k + 1))
  · refine .inl ⟨_, if_pos later, ?_, later⟩
    rw [← sum] at later ⊢
    exact toInt_toInt later
  · exact .inr ⟨if_neg later, later⟩

/-- How an iteration ends that finds in `t` what has been counted. -/
theorem retractPass_eq (speeds : ℕ → Fin 4 → ℚ) {k : ℕ} {t : Int32}
    (time : t.toInt = counted config k) (fits : FitsInt (counted config k)) :
    retractPass config t (speeds k) = .leaves ∧ Tested config speeds k ∨
      retractPass config t (speeds k) = goOn config t ∧
        ¬ Tested config speeds k := by
  rw [retractPass, time, Tested, ← stopped_iff_atRest]
  by_cases late : config.retractTimeMinMs < counted config k
  · rw [if_pos late]
    by_cases stopped :
        (List.finRange 4).foldl (stopTest config (speeds k)) true = true
    · exact .inl ⟨if_pos stopped, ⟨late, fits⟩, stopped⟩
    · exact .inr ⟨if_neg stopped, fun tested => stopped tested.2⟩
  · exact .inr ⟨if_neg late, fun tested => late tested.1.1⟩

/-- The loop counts whole milliseconds and goes on until a test succeeds or
`t` is full. -/
theorem retractLoop_eq (speeds : ℕ → Fin 4 → ℚ)
    (cycle : 0 ≤ config.retractCtrlCycleMs) (k : ℕ) :
    retractLoop config speeds k = none ∧
        (¬ FitsInt (counted config k) ∨ ∃ j < k, Tested config speeds j) ∨
      ∃ t, retractLoop config speeds k = some t ∧
        t.toInt = counted config k ∧ FitsInt (counted config k) ∧
        ∀ j < k, ¬ Tested config speeds j := by
  induction k with
  | zero =>
      have none : counted config 0 = 0 := by
        rw [counted, Nat.cast_zero, zero_mul]
      refine .inr ⟨0, rfl, none.symm, ?_, fun j before => ?_⟩
      · rw [none]
        decide
      · exact absurd before j.not_lt_zero
  | succ k ih =>
      obtain ⟨left, beyond | ⟨j, before, tested⟩⟩ |
        ⟨t, here, time, fits, untested⟩ := ih
      · refine .inl ⟨by rw [retractLoop, left, Option.bind_none], .inl ?_⟩
        exact fun fits => beyond (fitsInt_of_le (counted_nonneg cycle k)
          (counted_mono cycle k.le_succ) fits)
      · exact .inl ⟨by rw [retractLoop, left, Option.bind_none],
          .inr ⟨j, before.trans k.lt_succ_self, tested⟩⟩
      · rw [retractLoop, here, Option.bind_some]
        obtain ⟨leaves, tested⟩ | ⟨onward, fails⟩ :=
          retractPass_eq speeds time fits
        · exact .inl ⟨by rw [leaves, Pass.again?],
            .inr ⟨k, k.lt_succ_self, tested⟩⟩
        obtain ⟨next, again, later, fitsLater⟩ | ⟨full, beyond⟩ :=
          goOn_eq cycle time
        · refine .inr ⟨next, by rw [onward, again, Pass.again?], later,
            fitsLater, fun j before => ?_⟩
          obtain earlier | rfl := Nat.lt_succ_iff_lt_or_eq.mp before
          · exact untested j earlier
          · exact fails
        · exact .inl ⟨by rw [onward, full, Pass.again?], .inl beyond⟩

theorem leavesAt_iff (cycle : 0 ≤ config.retractCtrlCycleMs) (k : ℕ) :
    LeavesAt config speeds k ↔ IsLeast {k | Tested config speeds k} k := by
  rw [LeavesAt]
  obtain ⟨left, gone⟩ | ⟨t, here, time, fits, untested⟩ :=
    retractLoop_eq speeds cycle k
  · rw [left]
    refine iff_of_false (fun ⟨t, here, _⟩ => by cases here) fun first => ?_
    obtain beyond | ⟨j, before, tested⟩ := gone
    · exact beyond first.1.1.2
    · exact before.not_ge (first.2 tested)
  · have below : k ∈ lowerBounds {k | Tested config speeds k} :=
      fun j tested => not_lt.mp fun before => untested j before tested
    simp only [here, Option.some.injEq, exists_eq_left']
    obtain ⟨leaves, tested⟩ | ⟨onward, fails⟩ :=
      retractPass_eq speeds time fits
    · exact iff_of_true leaves ⟨tested, below⟩
    · rw [onward]
      exact iff_of_false (goOn_ne_leaves config t) fun first => fails first.1

theorem due_of_tested (k : ℕ) (tested : Tested config speeds k) :
    Due config speeds k := by
  refine ⟨tested.1.1.trans_le ?_, tested.2⟩
  rw [counted, Int.cast_mul, Int.cast_natCast]
  exact mul_le_mul_of_nonneg_left (Int.floor_le _) k.cast_nonneg

end Loop

/-- The loop leaves where it should if the whole milliseconds of the cycles
that have gone by are enough there, and not too many for an `int`. -/
theorem leavesAt_first_due_iff (config : AokeeConfig)
    (cycle : 0 < config.retractCtrlCycleMs) (speeds : ℕ → Fin 4 → ℚ) :
    (∀ k, LeavesAt config speeds k ↔ IsLeast {k | Due config speeds k} k) ↔
      ∀ k, IsLeast {k | Due config speeds k} k →
        config.retractTimeMinMs <
            ((k * ⌊config.retractCtrlCycleMs⌋ : ℤ) : ℚ) ∧
          FitsInt (k * ⌊config.retractCtrlCycleMs⌋) := by
  simp only [leavesAt_iff cycle.le]
  rw [isLeast_iff_isLeast_iff due_of_tested]
  exact forall_congr' fun k => forall_congr' fun first =>
    and_iff_left first.1.2

/-- Two cycles of two and a half milliseconds are four to the loop, and more
than three. -/
theorem leavesAt_fractional : LeavesAt
    { retractSpeed := 1, motorStopSpeed := 0, retractCtrlCycleMs := 5 / 2,
      retractTimeMinMs := 3, jointLimitAngle := 0 } (fun _ _ => 0) 2 := by
  have least : IsLeast {k | Due
      { retractSpeed := 1, motorStopSpeed := 0, retractCtrlCycleMs := 5 / 2,
        retractTimeMinMs := 3, jointLimitAngle := 0 } (fun _ _ => 0) k} 2 := by
    refine ⟨⟨by norm_num, fun _ => abs_zero.le⟩, ?_⟩
    rintro (_ | _ | k) due
    · exact absurd due.1 (by norm_num)
    · exact absurd due.1 (by norm_num)
    · exact Nat.le_add_left 2 k
  have whole : ⌊(5 / 2 : ℚ)⌋ = 2 := by norm_num
  refine (leavesAt_first_due_iff _ (by norm_num) _).mpr (fun k first => ?_) 2
    |>.mpr least
  rw [first.unique least, whole]
  exact ⟨by norm_num, by decide⟩

/-- A cycle of half a millisecond is none to the loop. -/
theorem never_leavesAt_half :
    let config : AokeeConfig :=
      { retractSpeed := 1, motorStopSpeed := 0, retractCtrlCycleMs := 1 / 2,
        retractTimeMinMs := 0, jointLimitAngle := 0 }
    IsLeast {k | Due config (fun _ _ => 0) k} 1 ∧
      ∀ k, ¬ LeavesAt config (fun _ _ => 0) k := by
  intro config
  have none : ⌊config.retractCtrlCycleMs⌋ = 0 := by
    norm_num [config]
  have due : Due config (fun _ _ => 0) 1 :=
    ⟨by norm_num [config], fun _ => abs_zero.le⟩
  refine ⟨⟨due, ?_⟩, fun k leaves => ?_⟩
  · rintro (_ | k) due
    · exact absurd due.1 (by norm_num [config])
    · exact Nat.le_add_left 1 k
  · have late :=
      ((leavesAt_iff (by norm_num [config]) k).mp leaves).1.1.1
    rw [counted, none, mul_zero] at late
    exact absurd late (lt_irrefl 0)

section Rest

variable {config : AokeeConfig}

/-- The fewest cycles that are longer than the least time. -/
def fewestCycles (config : AokeeConfig) : ℕ :=
  ⌊config.retractTimeMinMs / config.retractCtrlCycleMs⌋₊ + 1

theorem fewestCycles_le (cycle : 0 < config.retractCtrlCycleMs)
    (nonneg : 0 ≤ config.retractTimeMinMs) {speeds : ℕ → Fin 4 → ℚ} {k : ℕ}
    (due : Due config speeds k) : fewestCycles config ≤ k := by
  have late := due.1
  rw [← div_lt_iff₀ cycle] at late
  exact (Nat.floor_lt (div_nonneg nonneg cycle.le)).mpr late

theorem isLeast_due_of_rest (cycle : 0 < config.retractCtrlCycleMs)
    (nonneg : 0 ≤ config.retractTimeMinMs)
    (rests : 0 ≤ config.motorStopSpeed) :
    IsLeast {k | Due config (fun _ _ => 0) k} (fewestCycles config) := by
  constructor
  · refine ⟨?_, fun _ => abs_zero.trans_le rests⟩
    rw [← div_lt_iff₀ cycle, fewestCycles, Nat.cast_succ]
    exact Nat.lt_floor_add_one _
  · exact fun k (due : Due config (fun _ _ => 0) k) =>
      fewestCycles_le cycle nonneg due

end Rest

/-- For the speeds to make no difference while `t` is not full, the whole
milliseconds have to be enough after the fewest cycles that are. -/
theorem leavesAt_first_due_forall_iff (config : AokeeConfig)
    (cycle : 0 < config.retractCtrlCycleMs)
    (nonneg : 0 ≤ config.retractTimeMinMs)
    (rests : 0 ≤ config.motorStopSpeed) :
    (∀ speeds, (∀ k, IsLeast {k | Due config speeds k} k →
        FitsInt (counted config k)) →
      ∀ k, LeavesAt config speeds k ↔ IsLeast {k | Due config speeds k} k) ↔
      (FitsInt (counted config (fewestCycles config)) →
        config.retractTimeMinMs < counted config (fewestCycles config)) := by
  constructor
  · intro sound fits
    have least := isLeast_due_of_rest cycle nonneg rests
    have leaves := (sound (fun _ _ => 0)
      (fun k first => first.unique least ▸ fits) _).mpr least
    exact ((leavesAt_iff cycle.le _).mp leaves).1.1.1
  · intro enough speeds fits
    simp only [leavesAt_iff cycle.le]
    rw [isLeast_iff_isLeast_iff due_of_tested]
    intro k first
    have later := counted_mono cycle.le (fewestCycles_le cycle nonneg first.1)
    have late := enough
      (fitsInt_of_le (counted_nonneg cycle.le _) later (fits k first))
    exact ⟨⟨late.trans_le (Int.cast_le.mpr later), fits k first⟩, first.1.2⟩

/-! The loop is that of `devInit`: a turn of the main thread after whatever
frames the port hands over before it, nine turns or, with the stop test,
thirteen to an iteration. -/

section Turns

variable (config : AokeeConfig) (crc : List Byte → BitVec 16)
  (start : InitState) (heard : ℕ → List ((ℕ → Byte) × ℤ))

def arrivals (frames : List ((ℕ → Byte) × ℤ)) : List InitEvent :=
  frames.map fun frame => .frame frame.1 frame.2

def schedule : ℕ → List InitEvent
  | 0 => []
  | n + 1 => schedule n ++ arrivals (heard n) ++ [.turn]

def afterTurns (n : ℕ) : InitState :=
  (devInit config crc).exec start (schedule heard n)

/-- The state in which the main thread takes its turn. -/
def atTurn (n : ℕ) : InitState :=
  (devInit config crc).exec (afterTurns config crc start heard n)
    (arrivals (heard n))

/-- The turn at the top of an iteration. -/
def topTurn : ℕ → ℕ
  | 0 => 0
  | k + 1 =>
      topTurn k +
        if config.retractTimeMinMs <
            (afterTurns config crc start heard (topTurn k)).t.toInt then 13
        else 9

/-- What a stop test after so many turns reads. -/
def readSpeeds (n : ℕ) (joint : Fin 4) : ℚ :=
  ((atTurn config crc start heard (n + joint.val)).motors
    (jointMotor joint)).speed

def iterationSpeeds (k : ℕ) : Fin 4 → ℚ :=
  readSpeeds config crc start heard (topTurn config crc start heard k + 9)

variable {config crc start heard}

theorem afterTurns_succ (n : ℕ) :
    afterTurns config crc start heard (n + 1) =
      ((atTurn config crc start heard n).turn config crc).1 := by
  rw [afterTurns, schedule, Machine.exec_append, Machine.exec_append]
  rfl

theorem exec_arrivals (state : InitState)
    (frames : List ((ℕ → Byte) × ℤ)) :
    ((devInit config crc).exec state (arrivals frames)).point = state.point ∧
      ((devInit config crc).exec state (arrivals frames)).t = state.t := by
  induction frames generalizing state with
  | nil => exact ⟨rfl, rfl⟩
  | cons frame frames ih => exact ih (state.hear crc frame.1 frame.2)

theorem point_atTurn (n : ℕ) : (atTurn config crc start heard n).point =
    (afterTurns config crc start heard n).point :=
  (exec_arrivals _ _).1

theorem t_atTurn (n : ℕ) : (atTurn config crc start heard n).t =
    (afterTurns config crc start heard n).t :=
  (exec_arrivals _ _).2

theorem turn_command {state : InitState} {joint : Fin 4}
    (commands : state.point = .command joint) :
    (∃ torque, (state.turn config crc).1.point = .send joint torque) ∧
      (state.turn config crc).1.t = state.t := by
  obtain ⟨motors, pidRetract, t, point⟩ := state
  cases commands
  exact ⟨⟨_, rfl⟩, rfl⟩

theorem turn_send {state : InitState} {joint : Fin 4} {torque : ℚ}
    (sends : state.point = .send joint torque) :
    (state.turn config crc).1.point =
        (match nextJoint joint with
          | some next => .command next
          | none => .sleep) ∧
      (state.turn config crc).1.t = state.t := by
  obtain ⟨motors, pidRetract, t, point⟩ := state
  cases sends
  exact ⟨rfl, rfl⟩

theorem after_command {n : ℕ} {joint : Fin 4}
    (commands : (afterTurns config crc start heard n).point =
      .command joint) :
    (afterTurns config crc start heard (n + 2)).point =
        (match nextJoint joint with
          | some next => .command next
          | none => .sleep) ∧
      (afterTurns config crc start heard (n + 2)).t =
        (afterTurns config crc start heard n).t := by
  rw [← point_atTurn] at commands
  obtain ⟨⟨torque, sends⟩, same⟩ := turn_command commands
  rw [← afterTurns_succ, t_atTurn] at same
  rw [← afterTurns_succ, ← point_atTurn] at sends
  obtain ⟨next, sameNext⟩ := turn_send sends
  rw [← afterTurns_succ] at next sameNext
  rw [t_atTurn, same] at sameNext
  exact ⟨next, sameNext⟩

theorem after_commands {n : ℕ}
    (top : (afterTurns config crc start heard n).point = .command 0) :
    (afterTurns config crc start heard (n + 8)).point = .sleep ∧
      (afterTurns config crc start heard (n + 8)).t =
        (afterTurns config crc start heard n).t := by
  obtain ⟨second, first⟩ := after_command top
  obtain ⟨third, sameSecond⟩ := after_command second
  obtain ⟨fourth, sameThird⟩ := after_command third
  obtain ⟨sleeps, sameFourth⟩ := after_command fourth
  exact ⟨sleeps, by rw [sameFourth, sameThird, sameSecond, first]⟩

theorem after_sleep {n : ℕ}
    (sleeps : (afterTurns config crc start heard n).point = .sleep) :
    if config.retractTimeMinMs <
        (afterTurns config crc start heard n).t.toInt then
      (afterTurns config crc start heard (n + 1)).point = .check 0 true ∧
        (afterTurns config crc start heard (n + 1)).t =
          (afterTurns config crc start heard n).t
    else
      (afterTurns config crc start heard (n + 1)).point = .command 0 ∧
        (afterTurns config crc start heard (n + 1)).t =
          toInt ((afterTurns config crc start heard n).t.toInt +
            config.retractCtrlCycleMs) := by
  rw [← point_atTurn] at sleeps
  rw [afterTurns_succ, ← t_atTurn n]
  simp only [InitState.turn, sleeps]
  split <;> exact ⟨rfl, rfl⟩

theorem after_check (speeds : Fin 4 → ℚ) {n : ℕ} {joint : Fin 4}
    {stopped : Bool}
    (checks : (afterTurns config crc start heard n).point =
      .check joint stopped)
    (reads : speeds joint =
      ((atTurn config crc start heard n).motors (jointMotor joint)).speed) :
    afterTurns config crc start heard (n + 1) =
      (atTurn config crc start heard n).afterCheck config (nextJoint joint)
        (stopTest config speeds stopped joint) := by
  rw [← point_atTurn] at checks
  rw [afterTurns_succ, stopTest, reads]
  simp only [InitState.turn, checks, InitState.stillStopped]

theorem after_checks {n : ℕ}
    (tests : (afterTurns config crc start heard n).point = .check 0 true) :
    if (List.finRange 4).foldl
        (stopTest config (readSpeeds config crc start heard n)) true then
      (afterTurns config crc start heard (n + 4)).point = .calibrate 0
    else
      (afterTurns config crc start heard (n + 4)).point = .command 0 ∧
        (afterTurns config crc start heard (n + 4)).t =
          toInt ((afterTurns config crc start heard n).t.toInt +
            config.retractCtrlCycleMs) := by
  let speeds := readSpeeds config crc start heard n
  have first := after_check speeds tests rfl
  have second := after_check speeds (congrArg InitState.point first) rfl
  have third := after_check speeds (congrArg InitState.point second) rfl
  have fourth := after_check speeds (congrArg InitState.point third) rfl
  have same : (atTurn config crc start heard (n + 3)).t =
      (afterTurns config crc start heard n).t := by
    rw [t_atTurn, congrArg InitState.t third]
    change (atTurn config crc start heard (n + 2)).t = _
    rw [t_atTurn, congrArg InitState.t second]
    change (atTurn config crc start heard (n + 1)).t = _
    rw [t_atTurn, congrArg InitState.t first]
    exact t_atTurn n
  change afterTurns config crc start heard (n + 4) =
    InitState.afterCheck config _ none
      ((List.finRange 4).foldl (stopTest config speeds) true) at fourth
  rw [fourth, InitState.afterCheck_none, ← same]
  split
  · rfl
  · exact ⟨rfl, rfl⟩

/-- If `t` has room for the next sum, it is the one that `goOn` gives. -/
theorem after_goOn {n : ℕ} {t : Int32}
    (next : (afterTurns config crc start heard n).point = .command 0 ∧
      (afterTurns config crc start heard n).t =
        toInt (t.toInt + config.retractCtrlCycleMs)) :
    match goOn config t with
    | .leaves => (afterTurns config crc start heard n).point = .calibrate 0
    | .again t => (afterTurns config crc start heard n).point = .command 0 ∧
        (afterTurns config crc start heard n).t = t
    | .overflows => True := by
  unfold goOn
  split
  · rename_i leaves
    split at leaves <;> cases leaves
  · rename_i again
    split at again <;> cases again
    exact next
  · trivial

theorem after_iteration {k : ℕ}
    (top : (afterTurns config crc start heard
      (topTurn config crc start heard k)).point = .command 0) :
    match retractPass config
        (afterTurns config crc start heard
          (topTurn config crc start heard k)).t
        (iterationSpeeds config crc start heard k) with
    | .leaves => (afterTurns config crc start heard
        (topTurn config crc start heard (k + 1))).point = .calibrate 0
    | .again t => (afterTurns config crc start heard
          (topTurn config crc start heard (k + 1))).point = .command 0 ∧
        (afterTurns config crc start heard
          (topTurn config crc start heard (k + 1))).t = t
    | .overflows => True := by
  obtain ⟨sleeps, same⟩ := after_commands top
  have slept := after_sleep sleeps
  rw [same] at slept
  rw [retractPass, topTurn, iterationSpeeds]
  by_cases late : config.retractTimeMinMs <
      (afterTurns config crc start heard
        (topTurn config crc start heard k)).t.toInt
  · rw [if_pos late] at slept
    have tested := after_checks slept.1
    rw [slept.2] at tested
    rw [if_pos late, if_pos late]
    by_cases stopped : (List.finRange 4).foldl (stopTest config (readSpeeds
        config crc start heard (topTurn config crc start heard k + 9)))
        true = true
    · rw [if_pos stopped] at tested ⊢
      exact tested
    · rw [if_neg stopped] at tested ⊢
      exact after_goOn tested
  · rw [if_neg late] at slept
    rw [if_neg late, if_neg late]
    exact after_goOn slept

end Turns

/-- `devInit` runs the loop, at whatever speeds its stop tests read. -/
theorem devInit_refines_retractLoop (config : AokeeConfig)
    (crc : List Byte → BitVec 16) (motors : Fin 6 → UnitreeMotor)
    (pidRetract : Fin 4 → Pid) (heard : ℕ → List ((ℕ → Byte) × ℤ)) (k : ℕ) :
    let start := devInitStart motors pidRetract
    let speeds := iterationSpeeds config crc start heard
    let state k := afterTurns config crc start heard
      (topTurn config crc start heard k)
    (∀ t, retractLoop config speeds k = some t →
      (state k).point = .command 0 ∧ (state k).t = t) ∧
    (LeavesAt config speeds k → (state (k + 1)).point = .calibrate 0) := by
  intro start speeds state
  have reaches : ∀ k t, retractLoop config speeds k = some t →
      (state k).point = .command 0 ∧ (state k).t = t := by
    intro k
    induction k with
    | zero =>
        intro t begins
        cases begins
        exact ⟨rfl, rfl⟩
    | succ k ih =>
        intro t again
        obtain ⟨before, here, passes⟩ := Option.bind_eq_some_iff.mp again
        obtain ⟨top, same⟩ := ih before here
        have next := after_iteration top
        rw [same, Pass.eq_again passes] at next
        exact next
  refine ⟨reaches k, fun leaves => ?_⟩
  obtain ⟨t, here, breaks⟩ := leaves
  obtain ⟨top, same⟩ := reaches k t here
  have next := after_iteration top
  rw [same, breaks] at next
  exact next

end RoboBand.App
