import RobotProgram.Proofs.ExternalAxes
import RobotProgram.Proofs.OrientationError

/-!
# Validity of solutions

A solution is valid exactly when the angles behind it pass the convergence test, whether they come
from the closed form or from least squares (`Solver.solveGoal_converged`). The test bounds the
distance to the goal, and the sine of the angle between the orientations. So an orientation passes
when it is close to that of the goal, and also when it is close to a half turn away from it
(`Solver.valid_iff_near_or_half_turn`).
-/

namespace RobotProgram.Kinematics.Solver

open Scalar (wrapDegrees degrees)

/-! ### What a solution is checked for -/

variable {s : Solver ℝ} {goal : Matrix4 ℝ}

/-- How far the pose of some angles is from a goal. -/
noncomputable def errorAt (s : Solver ℝ) (goal : Matrix4 ℝ) (angles : Angles ℝ) : PoseError ℝ :=
  ⟨goal.position - (s.chain angles).position, Matrix4.orientationError (s.chain angles) goal⟩

/-- The error of a pose never fails to be found. -/
theorem poseError_eq (s : Solver ℝ) (goal : Matrix4 ℝ) (angles : Angles ℝ) :
    s.poseError goal angles = .ok (s.errorAt goal angles) := by
  rw [poseError, chain?_eq]
  rfl

/-- A solution has converged if both errors are within their tolerances. -/
theorem converged_iff {e : PoseError ℝ} :
    s.converged e = true ↔ e.position.norm ≤ s.options.tolerance ∧
      e.orientation.norm ≤ s.options.orientationTolerance := by
  simp [converged]

/-- However many steps of least squares are left, the flag they end with is the test of the angles
they end with. -/
theorem refineFrom_converged {fuel : ℕ} {taken : ℤ} {angles : Angles ℝ} {r : Refinement ℝ}
    (h : s.refineFrom goal fuel taken angles = .ok r) :
    r.converged = s.converged (s.errorAt goal r.angles) := by
  induction fuel generalizing taken angles with
  | zero =>
    rw [refineFrom, poseError_eq, Outcome.ok_bind] at h
    obtain rfl := Outcome.pure_eq_ok.mp h
    rfl
  | succ fuel ih =>
    rw [refineFrom, poseError_eq, Outcome.ok_bind] at h
    split at h
    · next hconverged =>
      obtain rfl := Outcome.pure_eq_ok.mp h
      exact hconverged.symm
    · obtain ⟨next, -, h⟩ := Outcome.bind_eq_ok.mp h
      exact ih h

/-- Angles that pass the test are not refined. -/
theorem refineFrom_of_converged (fuel : ℕ) {taken : ℤ} {angles : Angles ℝ}
    (h : s.converged (s.errorAt goal angles) = true) :
    s.refineFrom goal (fuel + 1) taken angles = .ok ⟨angles, taken, true⟩ := by
  rw [refineFrom, poseError_eq, Outcome.ok_bind, if_pos h]
  rfl

/-- A goal is solved when the error of the angles that are found is within the tolerances. -/
theorem solveGoal_converged {r : Refinement ℝ} (h : s.solveGoal goal = .ok r) :
    r.converged = s.converged (s.errorAt goal r.angles) := by
  unfold solveGoal at h
  split at h
  · rw [poseError_eq, Outcome.ok_bind] at h
    split at h
    · next hconverged =>
      obtain rfl := Outcome.pure_eq_ok.mp h
      exact hconverged.symm
    · exact refineFrom_converged h
  · exact refineFrom_converged h

/-- A resolution that ends well has the joint values of its angles, and is valid if these
converge. -/
theorem resolve_eq_ok {target : Frame ℝ} {slots : Slots ℝ} {owner : String} {r : Solution ℝ}
    (h : s.resolve target slots owner = .ok r) :
    ∃ goal angles, s.resolveExternal target slots = .ok (r.external, goal) ∧
      (r.internal = angles.map fun q => wrapDegrees (degrees q)) ∧
      r.valid = s.converged (s.errorAt goal angles) := by
  obtain ⟨⟨external, goal⟩, hexternal, h⟩ := Outcome.bind_eq_ok.mp h
  obtain ⟨found, hfound, h⟩ := Outcome.bind_eq_ok.mp h
  obtain rfl := Outcome.pure_eq_ok.mp h
  exact ⟨goal, found.angles, hexternal, rfl, solveGoal_converged hfound⟩

/-- A solution is valid exactly when the pose of the angles behind it is within the tolerance of the
goal, and its orientation is turned from that of the goal by an angle that is, or that lacks of a
half turn, at most the arc sine of the tolerance. An orientation error of zero leaves the same two
cases. -/
theorem valid_iff_near_or_half_turn {robot : Robot ℝ} {options : Options ℝ}
    (hs : make robot options = .ok s) (hrobot : robot.Orthonormal) {target : Frame ℝ}
    (htarget : target.Orthonormal) {slots : Slots ℝ} {owner : String} {r : Solution ℝ}
    (h : s.resolve target slots owner = .ok r) :
    (∃ goal angles axis θ, s.resolveExternal target slots = .ok (r.external, goal) ∧
      (r.internal = angles.map fun q => wrapDegrees (degrees q)) ∧
      axis.dot axis = 1 ∧ 0 ≤ θ ∧ θ ≤ Real.pi ∧
      (∀ v, goal.turn v = (Matrix4.spin axis θ).turn ((s.chain angles).turn v)) ∧
      (r.valid = true ↔
        (goal.position - (s.chain angles).position).norm ≤ options.tolerance ∧
          (θ ≤ Real.arcsin options.orientationTolerance ∨
            Real.pi - Real.arcsin options.orientationTolerance ≤ θ))) ∧
    ∀ current goal : Matrix4 ℝ, current.Rigid → goal.Rigid →
      (Matrix4.orientationError current goal = .zero ↔
        (∀ v, goal.turn v = current.turn v) ∨
        ∃ axis : Vector3 ℝ, axis.dot axis = 1 ∧
          ∀ v, goal.turn v = (Matrix4.spin axis Real.pi).turn (current.turn v)) := by
  have hrigid := rigid_of_make hs hrobot.tool
  obtain ⟨rfl, rfl, -, -⟩ := make_eq_ok hs
  constructor
  · obtain ⟨goal, angles, hgoal, hinternal, hvalid⟩ := resolve_eq_ok h
    -- The test reads the error as an angle, but its length is the sine of the angle.
    obtain ⟨axis, θ, haxis, hnonneg, hle, hturn, herror⟩ := Matrix4.exists_rotation_between
      (hrigid.chain angles) (rigid_of_resolveExternal hrobot htarget hgoal)
    refine ⟨goal, angles, axis, θ, hgoal, hinternal, haxis, hnonneg, hle, hturn, ?_⟩
    have hnorm : (s.errorAt goal angles).orientation.norm = Real.sin θ := by
      rw [errorAt, herror, Vector3.norm_scale_of_unit haxis,
        abs_of_nonneg (Real.sin_nonneg_of_nonneg_of_le_pi hnonneg hle)]
    rw [hvalid, converged_iff, hnorm, sin_le_iff_le_arcsin_or hnonneg hle]
    rfl
  · intro current goal hcurrent hgoal
    rw [Vector3.zero_eq]
    exact Matrix4.orientationError_eq_zero_iff hcurrent hgoal

/-! ### A robot that is told it reaches what it cannot reach -/

/-- A robot whose axes are all the third axis of the world. -/
noncomputable def column : Robot ℝ := .bare (.replicate 6 .world) [] wellNumbered_nil

/-- The frame of the world, turned upside down. -/
noncomputable def upsideDown : Frame ℝ := ⟨.zero, .unitX, -.unitY⟩

/-- The axes of that frame are perpendicular unit vectors. -/
theorem upsideDown_orthonormal : upsideDown.Orthonormal where
  xx := by simp [upsideDown, Vector3.dot_eq]
  yy := by simp [upsideDown, Vector3.dot_eq]
  xy := by simp [upsideDown, Vector3.dot_eq]

/-- The matrix of that frame is a half turn about the first axis. -/
theorem upsideDown_toMatrix : upsideDown.toMatrix =
    ⟨⟨1, 0, 0, 0⟩, ⟨0, -1, 0, 0⟩, ⟨0, 0, -1, 0⟩, ⟨0, 0, 0, 1⟩⟩ := by
  simp [upsideDown, Frame.toMatrix, Frame.zaxis, Matrix4.ofColumns]

/-- The solver of the column. -/
noncomputable def columnSolver : Solver ℝ :=
  ⟨column, Options.default, .replicate 6 ⟨⟨0, 0, 0⟩, ⟨0, 0, 1⟩⟩, 1⟩

/-- The solver of the column. -/
theorem make_column : make column Options.default = .ok columnSolver := by
  have haxes (i : Fin 6) : (column.axisFrames.get i).Orthonormal := by
    simpa [column, Robot.bare, Vector.get] using Frame.world_orthonormal
  rw [make_of_orthonormal Options.default haxes, columnSolver]
  simp [column, Robot.bare, Frame.world_toMatrix, Frame.world_zaxis]
  exact Vector3.zero_eq

/-- All axes of the column are the third axis of the world. -/
theorem columnSolver_line (i : Fin 6) :
    columnSolver.lines.get i = ⟨⟨0, 0, 0⟩, ⟨0, 0, 1⟩⟩ := by
  simp [columnSolver, Vector.get]

/-- The closed form does not apply: the wrist is on every axis. -/
theorem columnSolver_closedForm (goal : Matrix4 ℝ) : columnSolver.closedForm goal = none := by
  have helbows (distance : ℝ) : turnToDistance (⟨0, 0, 0⟩ : Vector3 ℝ) ⟨0, 0, 0⟩ distance
      ⟨0, 0, 1⟩ ⟨0, 0, 0⟩ = [] := by
    simp [turnToDistance, Vector3.reject, Vector3.norm, Vector3.dot_eq, tiny]
  have harm (center : Vector3 ℝ) : columnSolver.armAngles? center = none := by
    simp only [armAngles?, wristCenter, columnSolver_line, helbows]
  simp only [closedForm, harm]
  rfl

/-- With no axis turned, the tool of the column is at the origin of the world. -/
theorem columnSolver_chain_zero : columnSolver.chain (.replicate 6 0) = 1 := by
  have hturn (i : Fin 6) : columnSolver.axisTurn i 0 = 1 := by
    rw [axisTurn, columnSolver_line]
    exact Matrix4.rotation_zero (by simp [Vector3.dot_eq]) _
  have hzero (i : Fin 6) : (Vector.replicate 6 (0 : ℝ)).get i = 0 := by simp [Vector.get]
  simp only [chain_eq, hzero, hturn, one_mul]
  rfl

/-- The column never tips: it cannot reach a goal that is upside down. -/
theorem columnSolver_chain_ne (angles : Angles ℝ) :
    columnSolver.chain angles ≠ upsideDown.toMatrix := by
  have hturn (i : Fin 6) (q : ℝ) : (columnSolver.axisTurn i q).turn ⟨0, 0, 1⟩ = ⟨0, 0, 1⟩ := by
    rw [axisTurn, columnSolver_line, Matrix4.rotation_turn (by simp [Vector3.dot_eq])]
    exact Matrix4.spin_turn_axis (by simp [Vector3.dot_eq]) q
  have hbottom (i : Fin 6) (q : ℝ) : (columnSolver.axisTurn i q).r4 = ⟨0, 0, 0, 1⟩ :=
    Matrix4.ofColumns_r4 _ _ _ _
  have hchain : (columnSolver.chain angles).turn ⟨0, 0, 1⟩ = ⟨0, 0, 1⟩ := by
    have htool : columnSolver.tool = 1 := rfl
    simp only [chain_eq, htool, mul_one, Matrix4.mul_turn (hbottom _ _), hturn]
  intro h
  rw [h, upsideDown_toMatrix] at hchain
  have hz := congrArg Vector3.z hchain
  norm_num at hz

/-- The column stays where it is, and is told that it has reached the goal. -/
theorem columnSolver_resolve : columnSolver.resolve upsideDown noSlots "Target" =
    .ok ⟨.replicate 6 0, noSlots, true, [], 0⟩ := by
  have hexternal : columnSolver.resolveExternal upsideDown noSlots =
      .ok (noSlots, upsideDown.toMatrix) := by
    have hgoal : columnSolver.resolveExternal upsideDown noSlots =
        .ok (noSlots, (Frame.world : Frame ℝ).toMatrix.inverse * upsideDown.toMatrix) := rfl
    rw [hgoal, Frame.world_toMatrix, Matrix4.Rigid.inverse_one, one_mul]
  have hconverged : columnSolver.converged
      (columnSolver.errorAt upsideDown.toMatrix (.replicate 6 0)) = true := by
    rw [converged_iff, errorAt, columnSolver_chain_zero, Matrix4.orientationError_one,
      upsideDown_toMatrix]
    have hposition : (⟨⟨1, 0, 0, 0⟩, ⟨0, -1, 0, 0⟩, ⟨0, 0, -1, 0⟩, ⟨0, 0, 0, 1⟩⟩ :
        Matrix4 ℝ).position - (1 : Matrix4 ℝ).position = ⟨0, 0, 0⟩ := by
      ext <;> simp [Matrix4.position, ← Matrix4.one_eq, Matrix4.one, Matrix4.ofColumns]
    simp [hposition, Vector3.norm, Vector3.dot_eq, columnSolver, Options.default]
  have hsolve : columnSolver.solveGoal upsideDown.toMatrix = .ok ⟨.replicate 6 0, 0, true⟩ := by
    have hstart : (Vector.replicate 6 (Scalar.nat 0) : Angles ℝ) = .replicate 6 0 := by simp
    rw [solveGoal, columnSolver_closedForm]
    simp only [hstart]
    exact refineFrom_of_converged 49 hconverged
  have hzero : wrapDegrees (degrees (0 : ℝ)) = 0 := by
    rw [Scalar.wrapDegrees_real, Scalar.degrees_real]
    norm_num
  rw [resolve, hexternal, Outcome.ok_bind]
  simp only [hsolve, Outcome.ok_bind, Vector.map_replicate, hzero]
  rfl

/-- The column cannot reach a goal that is upside down, and yet its solution for it is valid. -/
theorem valid_iff_near_or_half_turn_column :
    make column Options.default = .ok columnSolver ∧ column.Orthonormal ∧
      upsideDown.Orthonormal ∧ (∀ angles, columnSolver.chain angles ≠ upsideDown.toMatrix) ∧
      ∃ r, columnSolver.resolve upsideDown noSlots "Target" = .ok r ∧ r.valid = true ∧
        ∃ goal angles axis θ,
          columnSolver.resolveExternal upsideDown noSlots = .ok (r.external, goal) ∧
          (r.internal = angles.map fun q => wrapDegrees (degrees q)) ∧
          axis.dot axis = 1 ∧ 0 ≤ θ ∧ θ ≤ Real.pi ∧
          (∀ v, goal.turn v =
            (Matrix4.spin axis θ).turn ((columnSolver.chain angles).turn v)) ∧
          (r.valid = true ↔
            (goal.position - (columnSolver.chain angles).position).norm ≤
                (Options.default : Options ℝ).tolerance ∧
              (θ ≤ Real.arcsin (Options.default : Options ℝ).orientationTolerance ∨
                Real.pi - Real.arcsin (Options.default : Options ℝ).orientationTolerance ≤ θ)) := by
  have hcolumn : column.Orthonormal := Robot.bare_orthonormal (by simp)
  exact ⟨make_column, hcolumn, upsideDown_orthonormal, columnSolver_chain_ne, _,
    columnSolver_resolve, rfl, (valid_iff_near_or_half_turn make_column hcolumn
      upsideDown_orthonormal columnSolver_resolve).1⟩

end RobotProgram.Kinematics.Solver
