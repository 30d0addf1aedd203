import RoboBand.Util.Siso
import Mathlib.Tactic.Linarith

namespace RoboBand.Util

open RoboBand.Data

structure PidParam where
  kp : ℚ
  ki : ℚ
  kd : ℚ
  maxIout : ℚ
  maxOut : ℚ

structure Pid extends PidParam where
  pOut : ℚ
  iOut : ℚ
  dOut : ℚ
  out : ℚ
  error0 : ℚ
  error1 : ℚ

section DiscretePid

/-! The law of the discrete controller, on a sequence of errors whose term 0
precedes the first sample. -/

variable (param : PidParam) (initial : ℚ) (error : ℕ → ℚ)

def integralPart : ℕ → ℚ
  | 0 => initial
  | k + 1 => clamp param.maxIout (integralPart k + param.ki * error (k + 1))

def derivativePart (k : ℕ) : ℚ := param.kd * (error (k + 1) - error k)

/-- The output for sample `k + 1`. -/
def discretePid (k : ℕ) : ℚ :=
  clamp param.maxOut (param.kp * error (k + 1) +
    integralPart param initial error (k + 1) + derivativePart param error k)

/-- The sum for sample `k + 1` as though it came first. -/
def freshSum (k : ℕ) : ℚ :=
  param.kp * error (k + 1) +
    clamp param.maxIout (initial + param.ki * error (k + 1)) +
    param.kd * (error (k + 1) - error 0)

/-- What the samples before sample `k + 1` add to that. -/
def carriedOver (k : ℕ) : ℚ :=
  integralPart param initial error (k + 1) -
      clamp param.maxIout (initial + param.ki * error (k + 1)) +
    param.kd * (error 0 - error k)

/-- The samples before sample `k + 1` add nothing, or nothing that the output
limit lets through. -/
def Unseen (k : ℕ) : Prop :=
  param.maxOut ≤ 0 ∨ carriedOver param initial error k = 0 ∨
    (param.maxOut ≤ freshSum param initial error k ∧
      param.maxOut ≤ freshSum param initial error k +
        carriedOver param initial error k) ∨
    freshSum param initial error k ≤ -param.maxOut ∧
      freshSum param initial error k + carriedOver param initial error k ≤
        -param.maxOut

theorem clamp_freshSum_eq_iff (k : ℕ) :
    clamp param.maxOut (freshSum param initial error k) =
        discretePid param initial error k ↔
      Unseen param initial error k := by
  have whole : param.kp * error (k + 1) +
      integralPart param initial error (k + 1) + derivativePart param error k =
        freshSum param initial error k +
          carriedOver param initial error k := by
    rw [derivativePart, freshSum, carriedOver]
    ring
  rw [discretePid, whole, clamp_eq_clamp_iff, left_eq_add, Unseen]

theorem integralPart_succ (k : ℕ) :
    integralPart param initial error (k + 1) =
      integralPart param (integralPart param initial error 1)
        (fun j => error (j + 1)) k := by
  induction k with
  | zero => rfl
  | succ k ih =>
      rw [integralPart, ih]
      rfl

end DiscretePid

/-- No output depends on the errors before it: it is cut down to one value, or
neither the integral part nor the derivative part carries anything over. -/
def PidParam.Memoryless (param : PidParam) : Prop :=
  param.maxOut ≤ 0 ∨ param.kd = 0 ∧ (param.ki = 0 ∨ param.maxIout ≤ 0)

namespace Pid

def new (param : PidParam) : Pid where
  toPidParam := param
  pOut := 0
  iOut := 0
  dOut := 0
  out := 0
  error0 := 0
  error1 := 0

def «calc» (pid : Pid) (err : ℚ) : Pid × ℚ :=
  let pid := { pid with error1 := pid.error0 }
  let pid := { pid with error0 := err }
  let pid := { pid with pOut := pid.kp * pid.error0 }
  let pid := { pid with iOut := pid.iOut + pid.ki * pid.error0 }
  let pid := { pid with dOut := pid.kd * (pid.error0 - pid.error1) }
  let pid := { pid with iOut := (streamLeft pid.iOut (limit pid.maxIout)).2 }
  let pid := { pid with out := pid.pOut + pid.iOut + pid.dOut }
  let pid := { pid with out := (streamLeft pid.out (limit pid.maxOut)).2 }
  (pid, pid.out)

instance : Siso Pid where
  call := «calc»

@[simp] theorem call_eq_calc (pid : Pid) (err : ℚ) :
    Siso.call pid err = pid.calc err := rfl

variable (pid : Pid) (err : ℚ)

@[simp] theorem calc_toPidParam :
    (pid.calc err).1.toPidParam = pid.toPidParam := rfl

@[simp] theorem calc_error0 : (pid.calc err).1.error0 = err := rfl

@[simp] theorem calc_iOut :
    (pid.calc err).1.iOut = clamp pid.maxIout (pid.iOut + pid.ki * err) :=
  limit_eq_clamp _ _

theorem calc_out :
    (pid.calc err).2 = clamp pid.maxOut (pid.kp * err +
      clamp pid.maxIout (pid.iOut + pid.ki * err) +
      pid.kd * (err - pid.error0)) := by
  rw [← limit_eq_clamp, ← limit_eq_clamp]
  rfl

/-- The errors as the object sees them: the one it remembers comes first. -/
def errorAt (errors : List ℚ) (k : ℕ) : ℚ := (pid.error0 :: errors).getD k 0

def discreteOutputs (errors : List ℚ) : List ℚ :=
  (List.range errors.length).map
    (discretePid pid.toPidParam pid.iOut (pid.errorAt errors))

theorem discreteOutputs_cons (errors : List ℚ) :
    pid.discreteOutputs (err :: errors) =
      (pid.calc err).2 :: (pid.calc err).1.discreteOutputs errors := by
  have first : discretePid pid.toPidParam pid.iOut (pid.errorAt (err :: errors))
      0 = (pid.calc err).2 := (calc_out pid err).symm
  have later : ∀ k, discretePid pid.toPidParam pid.iOut
      (pid.errorAt (err :: errors)) (k + 1) =
        discretePid pid.toPidParam (pid.calc err).1.iOut
          ((pid.calc err).1.errorAt errors) k := by
    intro k
    rw [discretePid, integralPart_succ, calc_iOut]
    rfl
  rw [discreteOutputs, List.length_cons, List.range_succ_eq_map, List.map_cons,
    List.map_map, first]
  exact congrArg _ (List.map_congr_left fun k _ => later k)

theorem calls_eq_discreteOutputs (errors : List ℚ) :
    calls.outputs pid errors = pid.discreteOutputs errors := by
  induction errors generalizing pid with
  | nil => rfl
  | cons err errors ih =>
      rw [discreteOutputs_cons, Machine.outputs_cons, calls_step, ih]
      rfl

section Streams

private theorem map_eq_map_errorAt (output : ℚ → ℚ) (errors : List ℚ) :
    errors.map output = (List.range errors.length).map
      fun k => output (pid.errorAt errors (k + 1)) := by
  apply List.ext_getElem
  · rw [List.length_map, List.length_map, List.length_range]
  · intro k inside _
    have within : k < errors.length := by simpa using inside
    simp [errorAt, within]

/-- The run is the discrete controller's when no sample shows what came before
it. -/
theorem streams_eq_discreteOutputs_iff (uses : List (StreamOperator × ℚ)) :
    streams.outputs pid uses = pid.discreteOutputs (uses.map Prod.snd) ↔
      ∀ k < uses.length, Unseen pid.toPidParam pid.iOut
        (pid.errorAt (uses.map Prod.snd)) k := by
  have fresh : streams.outputs pid uses =
      (List.range (uses.map Prod.snd).length).map fun k =>
        clamp pid.maxOut (freshSum pid.toPidParam pid.iOut
          (pid.errorAt (uses.map Prod.snd)) k) := by
    have each : streams.outputs pid uses =
        (uses.map Prod.snd).map fun err => (pid.calc err).2 := by
      rw [streams_outputs, List.map_map]
      rfl
    rw [each, pid.map_eq_map_errorAt]
    exact List.map_congr_left fun k _ => pid.calc_out _
  rw [fresh, discreteOutputs, List.map_inj_left]
  simp only [List.mem_range, List.length_map, clamp_freshSum_eq_iff]

/-- A state of a memoryless controller that answers as `pid` does. -/
private structure AnswersAs (state pid : Pid) : Prop where
  param : state.toPidParam = pid.toPidParam
  integral : pid.ki = 0 →
    clamp pid.maxIout state.iOut = clamp pid.maxIout pid.iOut

private theorem AnswersAs.calc_out {state pid : Pid}
    (answers : AnswersAs state pid) (memoryless : pid.Memoryless) (err : ℚ) :
    (state.calc err).2 = (pid.calc err).2 := by
  rw [Pid.calc_out, Pid.calc_out, answers.param]
  rcases memoryless with cut | ⟨noDerivative, noIntegral | cut⟩
  · rw [clamp_of_nonpos cut, clamp_of_nonpos cut]
  · simp only [noDerivative, noIntegral, zero_mul, add_zero,
      answers.integral noIntegral]
  · simp only [noDerivative, zero_mul, clamp_of_nonpos cut]

private theorem AnswersAs.calc {state pid : Pid}
    (answers : AnswersAs state pid) (err : ℚ) :
    AnswersAs (state.calc err).1 pid where
  param := answers.param
  integral := fun noIntegral => by
    rw [calc_iOut, answers.param, clamp_clamp, noIntegral, zero_mul, add_zero,
      answers.integral noIntegral]

private theorem calls_outputs_of_answersAs {state : Pid}
    (memoryless : pid.Memoryless) (answers : AnswersAs state pid)
    (errors : List ℚ) :
    calls.outputs state errors = errors.map fun err => (pid.calc err).2 := by
  induction errors generalizing state with
  | nil => rfl
  | cons err errors ih =>
      rw [Machine.outputs_cons, calls_step, call_eq_calc,
        answers.calc_out memoryless, ih (answers.calc err), List.map_cons,
        List.singleton_append]

/-- What one sample leaves behind for a following error of zero. -/
def carried : ℚ :=
  clamp pid.maxIout (pid.iOut + pid.ki * err) - pid.kd * err

theorem calc_calc_zero :
    ((pid.calc err).1.calc 0).2 = clamp pid.maxOut (pid.carried err) := by
  rw [calc_out, calc_toPidParam, calc_iOut, calc_error0, carried, mul_zero,
    mul_zero, add_zero, zero_add, clamp_clamp, zero_sub, mul_neg,
    ← sub_eq_add_neg]

private theorem exists_mul_kd (derivative : pid.kd ≠ 0) (value : ℚ) :
    ∃ err, pid.kd * err = value :=
  ⟨value / pid.kd, mul_div_cancel₀ value derivative⟩

private theorem exists_integral (integral : pid.ki ≠ 0) (value : ℚ) :
    ∃ err, pid.iOut + pid.ki * err = value :=
  ⟨(value - pid.iOut) / pid.ki, by
    rw [mul_div_cancel₀ _ integral, add_sub_cancel]⟩

theorem exists_carried_pos_neg
    (remembers : ¬ (pid.kd = 0 ∧ (pid.ki = 0 ∨ pid.maxIout ≤ 0))) :
    (∃ err, 0 < pid.carried err) ∧ ∃ err, pid.carried err < 0 := by
  by_cases derivative : pid.kd = 0
  · have integral : pid.ki ≠ 0 := fun none =>
      remembers ⟨derivative, Or.inl none⟩
    have positive : 0 < pid.maxIout :=
      not_le.mp fun cut => remembers ⟨derivative, Or.inr cut⟩
    obtain ⟨high, reachesHigh⟩ := pid.exists_integral integral 1
    obtain ⟨low, reachesLow⟩ := pid.exists_integral integral (-1)
    refine ⟨⟨high, ?_⟩, ⟨low, ?_⟩⟩
    · rw [carried, derivative, zero_mul, sub_zero, reachesHigh]
      exact clamp_pos positive one_pos
    · rw [carried, derivative, zero_mul, sub_zero, reachesLow]
      exact clamp_neg positive (neg_neg_of_pos one_pos)
  · have bound := fun err =>
      abs_le.mp (abs_clamp_le pid.maxIout (pid.iOut + pid.ki * err))
    obtain ⟨low, reachesLow⟩ :=
      pid.exists_mul_kd derivative (|pid.maxIout| + 1)
    obtain ⟨high, reachesHigh⟩ :=
      pid.exists_mul_kd derivative (-(|pid.maxIout| + 1))
    refine ⟨⟨high, ?_⟩, ⟨low, ?_⟩⟩
    · rw [carried, reachesHigh]
      linarith [(bound high).1]
    · rw [carried, reachesLow]
      linarith [(bound low).2]

/-- Two uses through the stream operators tell a controller with a memory from
one that is called. -/
theorem memoryless_of_streams_eq_calls {more : ℕ}
    (agree : ∀ uses : List (StreamOperator × ℚ), uses.length = more + 2 →
      streams.outputs pid uses = calls.outputs pid (uses.map Prod.snd)) :
    pid.Memoryless := by
  have second : ∀ err,
      (pid.calc 0).2 = clamp pid.maxOut (pid.carried err) := by
    intro err
    have here := agree ((.right, err) :: (.right, 0) ::
      List.replicate more (.right, 0)) (by simp)
    rw [streams_outputs] at here
    simp only [List.map_cons, Machine.outputs_cons, calls_step, call_eq_calc,
      List.singleton_append, List.cons.injEq, true_and] at here
    rw [← calc_calc_zero]
    exact here.1
  by_contra memory
  obtain ⟨uncut, remembers⟩ := not_or.mp memory
  have positive : 0 < pid.maxOut := not_le.mp uncut
  obtain ⟨⟨high, above⟩, low, below⟩ := pid.exists_carried_pos_neg remembers
  have highOut := clamp_pos positive above
  have lowOut := clamp_neg positive below
  rw [← second] at highOut lowOut
  exact lt_asymm highOut lowOut

theorem streams_eq_discretePid_iff (count : ℕ) :
    (∀ errors, calls.outputs pid errors = pid.discreteOutputs errors) ∧
      (∀ uses, streams.outputs pid uses =
          pid.discreteOutputs (uses.map Prod.snd) ↔
        ∀ k < uses.length, Unseen pid.toPidParam pid.iOut
          (pid.errorAt (uses.map Prod.snd)) k) ∧
      ((∀ uses : List (StreamOperator × ℚ), uses.length = count →
          streams.outputs pid uses = pid.discreteOutputs (uses.map Prod.snd)) ↔
        count ≤ 1 ∨ pid.Memoryless) := by
  refine ⟨pid.calls_eq_discreteOutputs, pid.streams_eq_discreteOutputs_iff, ?_⟩
  simp only [← calls_eq_discreteOutputs]
  constructor
  · intro agree
    rcases Nat.lt_or_ge count 2 with few | many
    · exact Or.inl (Nat.le_of_lt_succ few)
    · obtain ⟨more, rfl⟩ := Nat.exists_eq_add_of_le' many
      exact Or.inr (pid.memoryless_of_streams_eq_calls agree)
  · rintro (few | memoryless) uses rfl
    · match uses, few with
      | [], _ => rfl
      | [use], _ => rw [streams_outputs]; rfl
    · rw [streams_outputs, pid.calls_outputs_of_answersAs memoryless
        ⟨rfl, fun _ => rfl⟩, List.map_map]
      rfl

theorem stream_forgets_integral :
    let pid := new { kp := 0, ki := 1, kd := 0, maxIout := 10, maxOut := 10 }
    let uses := [(.right, 1), (.right, 1)]
    streams.outputs pid uses = [1, 1] ∧
      pid.discreteOutputs (uses.map Prod.snd) = [1, 2] ∧
      streams.outputs pid uses ≠ pid.discreteOutputs (uses.map Prod.snd) := by
  decide +kernel

end Streams

end Pid

end RoboBand.Util
