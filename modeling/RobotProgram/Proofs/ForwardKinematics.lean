import Mathlib.Data.List.Forall2
import Mathlib.Tactic.IntervalCases
import RobotProgram.Proofs.Rotations
import RobotProgram.Kinematics.Resolve

/-!
# Forward kinematics

The solver of a robot has unit axis directions (`Solver.make_eq_ok`), whatever frames the axes were
given by. The tool pose is the product of six rotations and the tool (`Solver.chain_eq`), so it is a
rigid motion (`Solver.Rigid.chain`), and it does not change when the angles go through degrees and
lose their whole turns (`Solver.chain_wrapped`).
-/

namespace RobotProgram

/-! ### Traversals that succeed -/

/-- A list is traversed with success exactly when each of its items is. -/
theorem Outcome.mapM_list_eq_ok {α β : Type} {f : α → Outcome β} {xs : List α} {ys : List β} :
    xs.mapM f = .ok ys ↔ List.Forall₂ (fun x y => f x = .ok y) xs ys := by
  induction xs generalizing ys with
  | nil =>
    rw [List.mapM_nil, Outcome.pure_eq_ok, List.forall₂_nil_left_iff, eq_comm]
  | cons x xs ih =>
    simp only [List.mapM_cons, Outcome.bind_eq_ok, Outcome.pure_eq_ok, ih,
      List.forall₂_cons_left_iff]
    constructor
    · rintro ⟨y, hy, zs, hzs, rfl⟩
      exact ⟨y, zs, hy, hzs, rfl⟩
    · rintro ⟨y, zs, hy, hzs, rfl⟩
      exact ⟨y, hy, zs, hzs, rfl⟩

/-- A vector is traversed with success exactly when each of its items is. -/
theorem Outcome.mapM_eq_ok {α β : Type} {n : ℕ} {f : α → Outcome β} {v : Vector α n}
    {w : Vector β n} : v.mapM f = .ok w ↔ ∀ i, f (v.get i) = .ok (w.get i) := by
  have hlist : v.mapM f = .ok w ↔ v.toList.mapM f = .ok w.toList := by
    rw [Vector.toList, ← Array.toList_mapM, ← Vector.toArray_mapM]
    cases v.mapM f with
    | error e => simp [Except.map, Functor.map]
    | ok u => simp [Except.map, Functor.map, Vector.toList, Vector.toArray_inj]
  rw [hlist, Outcome.mapM_list_eq_ok, List.forall₂_iff_get]
  simp only [Vector.length_toList, true_and]
  constructor
  · intro h i
    exact h i.1 i.2 i.2
  · intro h i hi _
    exact h ⟨i, hi⟩

/-! ### Robots -/

/-- A robot whose frames have perpendicular unit axes. The frames of the axes do not matter: their
directions are scaled when they are used. -/
structure Robot.Orthonormal (r : Robot ℝ) : Prop where
  base : r.baseFrame.Orthonormal
  tool : r.toolFrame.Orthonormal
  mechanism : ∀ m ∈ r.mechanisms, m.frame.Orthonormal

/-- A robot is made with such a tool frame, whatever its tool is. -/
theorem Robot.orthonormal_of_make {name : Value} {frames : List (Frame ℝ)}
    {limits : List (Interval ℝ)} {base mounting : Frame ℝ} {tool : Tool ℝ}
    {ms : List (Mechanism ℝ)} {r : Robot ℝ}
    (h : make name frames limits base mounting tool ms = .ok r) (hbase : base.Orthonormal)
    (hms : ∀ m ∈ ms, m.frame.Orthonormal) : r.Orthonormal := by
  unfold make at h
  split_ifs at h with hframes hlimits
  obtain ⟨tip, htip, h⟩ := Outcome.bind_eq_ok.mp h
  obtain ⟨checked, hcheck, h⟩ := Outcome.bind_eq_ok.mp h
  obtain rfl := Outcome.pure_eq_ok.mp h
  exact ⟨hbase, Frame.orthonormal_of_ofAxes htip, checkMechanisms_eq_ok.mp hcheck ▸ hms⟩

/-- A half turn to either side. -/
noncomputable def Interval.fullTurn : Interval ℝ := ⟨-180, 180⟩

/-- A robot at the origin of the world, without a tool, whose axes turn freely. -/
noncomputable def Robot.bare (frames : Vector (Frame ℝ) 6) (ms : List (Mechanism ℝ))
    (h : WellNumbered ms) : Robot ℝ where
  name := .text "bare"
  axisFrames := frames
  axisLimits := .replicate 6 .fullTurn
  baseFrame := .world
  mountingFrame := .world
  tool := .default
  toolFrame := .world
  mechanisms := ms
  wellNumbered := h

/-- No mechanisms are well numbered. -/
theorem wellNumbered_nil : WellNumbered ([] : List (Mechanism ℝ)) := by
  simp [WellNumbered]

/-- A robot without a tool has perpendicular unit axes if its mechanisms have. -/
theorem Robot.bare_orthonormal {frames : Vector (Frame ℝ) 6} {ms : List (Mechanism ℝ)}
    {h : WellNumbered ms} (hms : ∀ m ∈ ms, m.frame.Orthonormal) : (bare frames ms h).Orthonormal :=
  ⟨Frame.world_orthonormal, Frame.world_orthonormal, hms⟩

namespace Kinematics.Solver

open Scalar (wrapDegrees degrees radians)

/-- A solver with unit axis directions and a rigid tool. -/
structure Rigid (s : Solver ℝ) : Prop where
  axis : ∀ i, (s.lines.get i).direction.dot (s.lines.get i).direction = 1
  tool : s.tool.Rigid

/-- A solver that is made has the robot, the options and the tool, and axes of unit length. -/
theorem make_eq_ok {robot : Robot ℝ} {options : Options ℝ} {s : Solver ℝ}
    (h : make robot options = .ok s) :
    s.robot = robot ∧ s.options = options ∧ s.tool = robot.toolFrame.toMatrix ∧
      ∀ i, (s.lines.get i).direction.dot (s.lines.get i).direction = 1 := by
  obtain ⟨lines, hlines, h⟩ := Outcome.bind_eq_ok.mp h
  obtain rfl := Outcome.pure_eq_ok.mp h
  refine ⟨rfl, rfl, rfl, fun i => ?_⟩
  obtain ⟨d, hd, hline⟩ := Outcome.bind_eq_ok.mp (Outcome.mapM_eq_ok.mp hlines i)
  rw [← Outcome.pure_eq_ok.mp hline]
  exact Vector3.dot_self_of_unit hd

/-- A solver that is made is rigid if the frame of the tool is. -/
theorem rigid_of_make {robot : Robot ℝ} {options : Options ℝ} {s : Solver ℝ}
    (h : make robot options = .ok s) (htool : robot.toolFrame.Orthonormal) : s.Rigid := by
  obtain ⟨-, -, hs, haxis⟩ := make_eq_ok h
  exact ⟨haxis, hs ▸ htool.rigid⟩

/-- Axes that are given by perpendicular unit axes have a solver. -/
theorem make_of_orthonormal {robot : Robot ℝ} (options : Options ℝ)
    (h : ∀ i, (robot.axisFrames.get i).Orthonormal) :
    make robot options = .ok ⟨robot, options, robot.axisFrames.map fun f => ⟨f.point, f.zaxis⟩,
      robot.toolFrame.toMatrix⟩ := by
  have hlines : robot.axisFrames.mapM lineOf =
      .ok (robot.axisFrames.map fun f => ⟨f.point, f.zaxis⟩) := by
    refine Outcome.mapM_eq_ok.mpr fun i => ?_
    rw [lineOf, Vector3.unit_of_dot_self (h i).zz]
    simp [Vector.get]
  rw [make, hlines]
  rfl

/-! ### The chain -/

/-- The chain is the product of the turns about the six axes and the tool. -/
theorem chain_eq (s : Solver ℝ) (q : Angles ℝ) :
    s.chain q = s.axisTurn 0 (q.get 0) * s.axisTurn 1 (q.get 1) * s.axisTurn 2 (q.get 2) *
      s.axisTurn 3 (q.get 3) * s.axisTurn 4 (q.get 4) * s.axisTurn 5 (q.get 5) * s.tool := by
  have hzip : s.lines.zip q = #v[(s.lines.get 0, q.get 0), (s.lines.get 1, q.get 1),
      (s.lines.get 2, q.get 2), (s.lines.get 3, q.get 3), (s.lines.get 4, q.get 4),
      (s.lines.get 5, q.get 5)] := by
    ext i hi
    · interval_cases i <;> simp <;> rfl
    · interval_cases i <;> simp <;> rfl
  rw [chain, hzip]
  change (1 : Matrix4 ℝ) * s.axisTurn 0 (q.get 0) * s.axisTurn 1 (q.get 1) *
    s.axisTurn 2 (q.get 2) * s.axisTurn 3 (q.get 3) * s.axisTurn 4 (q.get 4) *
    s.axisTurn 5 (q.get 5) * s.tool = _
  rw [one_mul]

/-- No real angle is refused. -/
theorem chain?_eq (s : Solver ℝ) (q : Angles ℝ) : s.chain? q = .ok (s.chain q) := by
  have hfinite : q.any Scalar.infinite = false := by
    rw [Vector.any_eq_false]
    exact fun i hi => Bool.false_ne_true
  rw [chain?, hfinite]
  rfl

namespace Rigid

variable {s : Solver ℝ}

/-- A turn about an axis is a rigid motion. -/
theorem axisTurn (hs : s.Rigid) (i : Fin 6) (angle : ℝ) : (s.axisTurn i angle).Rigid :=
  Matrix4.rotation_rigid (hs.axis i) angle _

/-- The chain is a rigid motion. -/
theorem chain (hs : s.Rigid) (q : Angles ℝ) : (s.chain q).Rigid := by
  rw [chain_eq]
  exact ((((((hs.axisTurn 0 _).mul (hs.axisTurn 1 _)).mul (hs.axisTurn 2 _)).mul
    (hs.axisTurn 3 _)).mul (hs.axisTurn 4 _)).mul (hs.axisTurn 5 _)).mul hs.tool

end Rigid

/-- Whole turns of an axis do not show. -/
theorem axisTurn_wrapped (s : Solver ℝ) (i : Fin 6) (q : ℝ) :
    s.axisTurn i (radians (wrapDegrees (degrees q))) = s.axisTurn i q := by
  obtain ⟨k, hk⟩ := Scalar.radians_wrapDegrees q
  rw [hk]
  exact Matrix4.rotation_congr (Real.cos_add_int_mul_two_pi q k)
    (Real.sin_add_int_mul_two_pi q k) _ _

/-- The pose of angles is that of the joint values which a solution gives for them. -/
theorem chain_wrapped (s : Solver ℝ) (q : Angles ℝ) :
    s.chain ((q.map fun x => wrapDegrees (degrees x)).map radians) = s.chain q := by
  have hget (i : Fin 6) : ((q.map fun x => wrapDegrees (degrees x)).map radians).get i =
      radians (wrapDegrees (degrees (q.get i))) := by
    simp [Vector.get]
  simp only [chain_eq, hget, axisTurn_wrapped]

end Kinematics.Solver

end RobotProgram
