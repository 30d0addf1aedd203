import RoboBand.Data.Saturation
import RoboBand.Util.Pid

namespace RoboBand.Util.Pid

open RoboBand.Data

/-! The integral part over whole runs: it is a sum that is limited after every
error, not a limit put on a sum that goes on. -/

theorem exec_toPidParam (pid : Pid) (errors : List ℚ) :
    (calls.exec pid errors).toPidParam = pid.toPidParam := by
  induction errors generalizing pid with
  | nil => rfl
  | cons err rest ih => exact ih _

theorem exec_iOut (pid : Pid) (errors : List ℚ) :
    (calls.exec pid errors).iOut =
      saturatingSum pid.maxIout pid.iOut (errors.map (pid.ki * ·)) := by
  induction errors generalizing pid with
  | nil => rfl
  | cons err rest ih =>
      rw [Machine.exec_cons, calls_step, call_eq_calc, ih, calc_iOut,
        calc_toPidParam]
      rfl

theorem abs_exec_iOut_le (pid : Pid) (band : 0 ≤ pid.maxIout)
    (inside : |pid.iOut| ≤ pid.maxIout) (errors : List ℚ) :
    |(calls.exec pid errors).iOut| ≤ pid.maxIout := by
  rw [exec_iOut]
  exact abs_saturatingSum_le band inside _

theorem abs_exec_out_le (pid : Pid) (band : 0 ≤ pid.maxOut)
    (inside : |pid.out| ≤ pid.maxOut) (errors : List ℚ) :
    |(calls.exec pid errors).out| ≤ pid.maxOut := by
  induction errors generalizing pid with
  | nil => exact inside
  | cons err rest ih =>
      have limited : |(pid.calc err).1.out| ≤ pid.maxOut := by
        change |(pid.calc err).2| ≤ pid.maxOut
        rw [calc_out]
        exact abs_clamp_le_of_nonneg band _
      exact ih (pid.calc err).1 band limited

section Recovery

variable (pid : Pid) {errors : List ℚ} {d : ℚ}

/-- The integral part never waits: each error of one sign moves it by `ki * d`
at least, from wherever it is. -/
theorem exec_iOut_le (integral : 0 < pid.ki) (positive : 0 < d)
    (all : ∀ err ∈ errors, err ≤ -d) :
    (calls.exec pid errors).iOut ≤
      max (-pid.maxIout) (pid.iOut - errors.length * pid.ki * d) := by
  have lowers : ∀ term ∈ errors.map (pid.ki * ·), term ≤ -(pid.ki * d) := by
    intro term member
    obtain ⟨err, inside, rfl⟩ := List.mem_map.mp member
    rw [← mul_neg]
    exact mul_le_mul_of_nonneg_left (all err inside) integral.le
  have lowered := saturatingSum_le pid.maxIout pid.iOut
    (mul_pos integral positive).le lowers
  rwa [List.length_map, nsmul_eq_mul, ← mul_assoc, ← exec_iOut] at lowered

theorem le_exec_iOut (band : 0 ≤ pid.maxIout) (integral : 0 < pid.ki)
    (positive : 0 < d) (all : ∀ err ∈ errors, d ≤ err) :
    min pid.maxIout (pid.iOut + errors.length * pid.ki * d) ≤
      (calls.exec pid errors).iOut := by
  have raises : ∀ term ∈ errors.map (pid.ki * ·), pid.ki * d ≤ term := by
    intro term member
    obtain ⟨err, inside, rfl⟩ := List.mem_map.mp member
    exact mul_le_mul_of_nonneg_left (all err inside) integral.le
  have raised := le_saturatingSum band pid.iOut
    (mul_pos integral positive).le raises
  rwa [List.length_map, nsmul_eq_mul, ← mul_assoc, ← exec_iOut] at raised

end Recovery

/-- The bounds hold after every call, and how long the errors had one sign does
not show in the number of errors it takes to come back. -/
theorem bounded_without_windup (param : PidParam) (integral : 0 < param.ki)
    (iBand : 0 ≤ param.maxIout) (band : 0 ≤ param.maxOut)
    (history : List ℚ) :
    |(calls.exec (new param) history).iOut| ≤ param.maxIout ∧
      |(calls.exec (new param) history).out| ≤ param.maxOut ∧
      ∀ (further : List ℚ) (d : ℚ), 0 < d →
        ((∀ err ∈ further, err ≤ -d) →
          (calls.exec (new param) (history ++ further)).iOut ≤
            max (-param.maxIout)
              (param.maxIout - further.length * param.ki * d)) ∧
        ((∀ err ∈ further, d ≤ err) →
          min param.maxIout
              (-param.maxIout + further.length * param.ki * d) ≤
            (calls.exec (new param) (history ++ further)).iOut) := by
  have inside := abs_exec_iOut_le (new param) iBand
    (abs_zero.trans_le iBand) history
  have outInside := abs_exec_out_le (new param) band
    (abs_zero.trans_le band) history
  obtain ⟨low, high⟩ := abs_le.mp inside
  have same : (calls.exec (new param) history).toPidParam = param :=
    exec_toPidParam (new param) history
  refine ⟨inside, outInside, fun further d positive => ?_⟩
  rw [Machine.exec_append]
  constructor
  · intro all
    have lowered := exec_iOut_le (calls.exec (new param) history)
      (same.symm ▸ integral) positive all
    rw [same] at lowered
    exact lowered.trans (max_le_max_left _ (sub_le_sub_right high _))
  · intro all
    have raised := le_exec_iOut (calls.exec (new param) history)
      (same.symm ▸ iBand) (same.symm ▸ integral) positive all
    rw [same] at raised
    exact (min_le_min_left _ (add_le_add_left low _)).trans raised

/-- Twenty errors drive the integral part to its bound and hold it there; two
errors of the other sign bring it back by all that they add up to. -/
theorem recovers_from_saturation :
    let param : PidParam :=
      { kp := 1, ki := 1, kd := 0, maxIout := 10, maxOut := 12 }
    let history := List.replicate 20 3
    let further := [-4, -5]
    |(calls.exec (new param) history).iOut| ≤ 10 ∧
      |(calls.exec (new param) history).out| ≤ 12 ∧
      (calls.exec (new param) (history ++ further)).iOut ≤ 10 - 2 * 1 * 4 ∧
      (calls.exec (new param) history).iOut = 10 ∧
      (calls.exec (new param) (history ++ further)).iOut = 1 := by
  intro param history further
  obtain ⟨integral, out, recovers⟩ := bounded_without_windup param
    (by decide) (by decide) (by decide) history
  have recovered := (recovers further 4 (by decide)).1 (by decide)
  exact ⟨integral, out, recovered.trans (by decide +kernel),
    by decide +kernel, by decide +kernel⟩

end RoboBand.Util.Pid
