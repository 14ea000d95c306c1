import RobotProgram.Proofs.ForwardKinematics
import RobotProgram.Proofs.Subproblems
import RobotProgram.Proofs.Validity

/-!
# The closed form

For a robot whose second and third axes are parallel and whose last three axes meet at right angles
in the center of the wrist (`Solver.SphericalWrist`), the closed form reaches every pose that the
robot can take with the wrist in front of the first axis (`Solver.closedForm_reaches`). The angles
it finds need not be those that the pose was made from: the arm may bend its elbow the other way,
and the wrist may turn over.

The arm is solved first. The first axis turns the center of the wrist into its plane
(`Solver.axisTurn_first`), the elbow brings it to its distance from the second axis, and the second
axis turns it to its place (`Solver.exists_armAngles`). What is left is a motion that keeps the
center of the wrist, and the last three axes make every such motion (`Solver.exists_wristAngles`).
-/

namespace RobotProgram.Kinematics.Solver

open RobotProgram.Vector3 RobotProgram.Matrix4

/-- The direction of an axis. -/
noncomputable abbrev axis (s : Solver ℝ) (i : Fin 6) : Vector3 ℝ := (s.lines.get i).direction

/-- The point of an axis. -/
noncomputable abbrev origin (s : Solver ℝ) (i : Fin 6) : Vector3 ℝ := (s.lines.get i).point

/-- The way from an axis to a point, across the axis. -/
noncomputable abbrev across (s : Solver ℝ) (i : Fin 6) (p : Vector3 ℝ) : Vector3 ℝ :=
  (p - s.origin i).reject (s.axis i)

/-- A robot with a parallel second and third axis and with a spherical wrist, whose center is in the
plane through the first axis that is across the second. -/
structure SphericalWrist (s : Solver ℝ) : Prop where
  /-- The second and the third axis are parallel. -/
  elbow : s.axis 2 = s.axis 1 ∨ s.axis 2 = -s.axis 1
  shoulder : (s.axis 1).dot (s.axis 0) = 0
  plane : (s.axis 1).dot (s.wristCenter - s.origin 0) = 0
  /-- The fourth axis passes through the center of the wrist, which is a point of the fifth. -/
  fourth : ∃ t, s.wristCenter = s.origin 3 + (s.axis 3).scale t
  sixth : ∃ t, s.wristCenter = s.origin 5 + (s.axis 5).scale t
  fourth_fifth : (s.axis 3).dot (s.axis 4) = 0
  fifth_sixth : (s.axis 4).dot (s.axis 5) = 0

/-- The center of the wrist in the pose of some angles, with an axis turned back. -/
noncomputable def turnedCenter (s : Solver ℝ) (i : Fin 6) (q : Angles ℝ) : Vector3 ℝ :=
  (s.axisTurn i (q.get i)).inverse.apply ((s.chain q * s.tool.inverse).apply s.wristCenter)

/-- The motion of three axes. -/
noncomputable def motionOf (s : Solver ℝ) (i j k : Fin 6) (a b c : ℝ) : Matrix4 ℝ :=
  s.axisTurn i a * s.axisTurn j b * s.axisTurn k c

/-- The wrist is in front of the first axis, and no point is so near to the axis it is turned about
that the closed form would not turn it. -/
structure Clear (s : Solver ℝ) (q : Angles ℝ) : Prop where
  /-- Turned back about the first axis, the center is on the side of it that it starts on. -/
  front : 0 < (s.across 0 s.wristCenter).dot (s.across 0 (s.turnedCenter 0 q))
  center_first : tiny ≤ (s.across 0 s.wristCenter).norm
  turned_first : tiny ≤ (s.across 0 (s.turnedCenter 0 q)).norm
  center_third : tiny ≤ (s.across 2 s.wristCenter).norm
  shoulder_third : tiny ≤ (s.across 2 (s.origin 1)).norm
  turned_second : tiny ≤ (s.across 1 (s.turnedCenter 0 q)).norm
  /-- With the arm that is found, the sixth axis is along the fourth or clear of it. -/
  hand : ∀ q1 q2 q3,
    s.armAngles? ((s.chain q * s.tool.inverse).apply s.wristCenter) = some (q1, q2, q3) →
    (((s.armMotion q1 q2 q3).inverse * (s.chain q * s.tool.inverse)).turn (s.axis 5)).reject
        (s.axis 3) = .zero ∨
      tiny ≤ ((((s.armMotion q1 q2 q3).inverse * (s.chain q * s.tool.inverse)).turn
        (s.axis 5)).reject (s.axis 3)).norm

variable {s : Solver ℝ}

/-! ### Three axes -/

/-- Three turns in a row are a rigid motion. -/
theorem Rigid.motionOf (hs : s.Rigid) (i j k : Fin 6) (a b c : ℝ) :
    (s.motionOf i j k a b c).Rigid :=
  ((hs.axisTurn i a).mul (hs.axisTurn j b)).mul (hs.axisTurn k c)

/-- Three turns in a row take a point along, the last one first. -/
theorem motionOf_apply (hs : s.Rigid) (i j k : Fin 6) (a b c : ℝ) (p : Vector3 ℝ) :
    (s.motionOf i j k a b c).apply p =
      (s.axisTurn i a).apply ((s.axisTurn j b).apply ((s.axisTurn k c).apply p)) := by
  rw [motionOf, mul_apply (hs.axisTurn k c).bottom, mul_apply (hs.axisTurn j b).bottom]

/-- Three turns in a row take a direction along, the last one first. -/
theorem motionOf_turn (hs : s.Rigid) (i j k : Fin 6) (a b c : ℝ) (v : Vector3 ℝ) :
    (s.motionOf i j k a b c).turn v =
      (spin (s.axis i) a).turn ((spin (s.axis j) b).turn ((spin (s.axis k) c).turn v)) := by
  rw [motionOf, mul_turn (hs.axisTurn k c).bottom, mul_turn (hs.axisTurn j b).bottom]
  rw [axisTurn, axisTurn, axisTurn, rotation_turn (hs.axis k), rotation_turn (hs.axis j),
    rotation_turn (hs.axis i)]

/-- The motion of the arm is that of its first three axes. -/
theorem armMotion_eq (s : Solver ℝ) (q1 q2 q3 : ℝ) :
    s.armMotion q1 q2 q3 = s.motionOf 0 1 2 q1 q2 q3 := rfl

/-- The pose of angles as a motion of the arm, a motion of the wrist and the tool. -/
theorem chain_eq_motions (s : Solver ℝ) (q : Angles ℝ) :
    s.chain q = s.motionOf 0 1 2 (q.get 0) (q.get 1) (q.get 2) *
      s.motionOf 3 4 5 (q.get 3) (q.get 4) (q.get 5) * s.tool := by
  rw [chain_eq, motionOf, motionOf]
  simp only [mul_assoc]

/-- Without the tool, the chain is the motion of the arm and that of the wrist. -/
theorem chain_mul_inverse (hs : s.Rigid) (q : Angles ℝ) :
    s.chain q * s.tool.inverse = s.motionOf 0 1 2 (q.get 0) (q.get 1) (q.get 2) *
      s.motionOf 3 4 5 (q.get 3) (q.get 4) (q.get 5) := by
  rw [chain_eq_motions, mul_assoc _ s.tool, hs.tool.mul_inverse, mul_one]

/-! ### The wrist -/

section Wrist

/-- The last three axes keep the center of the wrist. -/
theorem wrist_apply (hs : s.Rigid) (hw : s.SphericalWrist) (q4 q5 q6 : ℝ) :
    (s.motionOf 3 4 5 q4 q5 q6).apply s.wristCenter = s.wristCenter := by
  obtain ⟨t, ht⟩ := hw.fourth
  obtain ⟨u, hu⟩ := hw.sixth
  have hcenter : s.wristCenter = s.origin 4 + (s.axis 4).scale 0 := by
    ext <;> simp [wristCenter]
  rw [motionOf_apply hs, axisTurn, axisTurn, axisTurn,
    rotation_apply_of_mem_line (hs.axis 5) q6 hu,
    rotation_apply_of_mem_line (hs.axis 4) q5 hcenter,
    rotation_apply_of_mem_line (hs.axis 3) q4 ht]

/-- The fourth and the fifth axis take the sixth to every direction, unless that is too near to the
fourth axis. -/
theorem exists_turnTwice_axes (hs : s.Rigid) (hw : s.SphericalWrist) {d : Vector3 ℝ}
    (hd : d.dot d = 1)
    (hhand : d.reject (s.axis 3) = ⟨0, 0, 0⟩ ∨ tiny ≤ (d.reject (s.axis 3)).norm) :
    ∃ first second, turnTwice (s.axis 5) d (s.axis 3) (s.axis 4) = [first, second] ∧
      ∀ t ∈ [first, second],
        (spin (s.axis 3) t.1).turn ((spin (s.axis 4) t.2).turn (s.axis 5)) = d := by
  obtain ⟨middle, hfirst, hsecond, hmiddle⟩ :=
    exists_between (hs.axis 3) (hs.axis 4) hw.fourth_fifth hd
  refine exists_turnTwice (hs.axis 3) (hs.axis 4) ?_ hfirst (hsecond.trans hw.fifth_sixth.symm)
    (hmiddle.trans (hs.axis 5).symm) ((hs.axis 5).trans hd.symm) ?_ hhand
  · rw [hw.fourth_fifth]
    norm_num [tiny]
  · rw [reject_of_dot_eq_zero hw.fifth_sixth]
    exact tiny_le_norm (hs.axis 5)

/-- Once the sixth axis points where it should, turning about it takes the fifth axis to its
place. -/
theorem turn_sixth (hs : s.Rigid) (hw : s.SphericalWrist) {m r : Matrix4 ℝ} (hm : m.Rigid)
    (hr : r.Rigid) (hsixth : r.turn (s.axis 5) = m.turn (s.axis 5)) :
    r.turn ((spin (s.axis 5) (turnOnto (s.axis 4) (r.turnBack.turn (m.turn (s.axis 4)))
      (s.axis 5) .zero)).turn (s.axis 4)) = m.turn (s.axis 4) := by
  have hperp : (s.axis 5).dot (s.axis 4) = 0 := by rw [dot_comm, hw.fifth_sixth]
  have hback : (s.axis 5).dot (r.turnBack.turn (m.turn (s.axis 4))) = 0 := by
    rw [dot_comm, dot_turnBack, hsixth, hm.dot, hw.fifth_sixth]
  have hunit : (r.turnBack.turn (m.turn (s.axis 4))).dot (r.turnBack.turn (m.turn (s.axis 4))) =
      1 := by
    rw [dot_turnBack, hr.turn_turnBack, hm.dot, hs.axis 4]
  rw [spin_turnOnto (hs.axis 5) (hperp.trans hback.symm) ((hs.axis 4).trans hunit.symm) (.inr ?_),
    hr.turn_turnBack]
  rw [reject_of_dot_eq_zero hback]
  exact tiny_le_norm hunit

/-- The wrist makes every motion that keeps its center, unless it takes the sixth axis too near to
the fourth. -/
theorem exists_wristAngles (hs : s.Rigid) (hw : s.SphericalWrist) {m : Matrix4 ℝ} (hm : m.Rigid)
    (hcenter : m.apply s.wristCenter = s.wristCenter)
    (hhand : (m.turn (s.axis 5)).reject (s.axis 3) = ⟨0, 0, 0⟩ ∨
      tiny ≤ ((m.turn (s.axis 5)).reject (s.axis 3)).norm) :
    ∃ q4 q5 q6, s.wristAngles? m = some (q4, q5, q6) ∧ s.motionOf 3 4 5 q4 q5 q6 = m := by
  have hd : (m.turn (s.axis 5)).dot (m.turn (s.axis 5)) = 1 := (hm.dot _ _).trans (hs.axis 5)
  obtain ⟨first, second, hfound, hways⟩ := exists_turnTwice_axes hs hw hd hhand
  obtain ⟨⟨q4, q5⟩, hchosen⟩ :
      ∃ t, smallestBy (fun t : ℝ × ℝ => wrappedSize t.1) first [second] = t := ⟨_, rfl⟩
  -- Both ways turn the sixth axis to its place, so it does not matter which one is chosen.
  have hsixth := hways (q4, q5) (hchosen ▸ smallestBy_mem _ first [second])
  obtain ⟨r, hr⟩ :
      ∃ r, rotation (s.axis 3) q4 .zero * rotation (s.axis 4) q5 .zero = r := ⟨_, rfl⟩
  have hrigid : r.Rigid :=
    hr ▸ (rotation_rigid (hs.axis 3) q4 _).mul (rotation_rigid (hs.axis 4) q5 _)
  have hturn (v : Vector3 ℝ) :
      r.turn v = (spin (s.axis 3) q4).turn ((spin (s.axis 4) q5).turn v) := by
    rw [← hr, mul_turn (rotation_rigid (hs.axis 4) q5 _).bottom, rotation_turn (hs.axis 3),
      rotation_turn (hs.axis 4)]
  have hangles : s.wristAngles? m = some (q4, q5,
      turnOnto (s.axis 4) (r.turnBack.turn (m.turn (s.axis 4))) (s.axis 5) .zero) := by
    simp only [wristAngles?, hfound, hchosen, hr]
  refine ⟨q4, q5, _, hangles, ?_⟩
  -- Both motions keep the center of the wrist, and they agree on the fifth and the sixth axis.
  refine (hs.motionOf 3 4 5 q4 q5 _).eq_of_agree hm (hs.axis 4) (hs.axis 5) hw.fifth_sixth ?_ ?_
    ((wrist_apply hs hw q4 q5 _).trans hcenter.symm)
  · rw [motionOf_turn hs, ← hturn]
    exact turn_sixth hs hw hm hrigid ((hturn _).trans hsixth)
  · rw [motionOf_turn hs, spin_turn_axis (hs.axis 5), hsixth]

end Wrist

/-! ### The arm -/

section Arm

/-- Neither the second nor the third axis moves a point along the second. -/
theorem dot_axisTurn_second (hs : s.Rigid) (q : ℝ) (p : Vector3 ℝ) :
    (s.axis 1).dot ((s.axisTurn 1 q).apply p) = (s.axis 1).dot p :=
  dot_rotation_apply (hs.axis 1) q _ p

/-- A turn about the third axis keeps the distance along the second one, to which it is parallel. -/
theorem dot_axisTurn_third (hs : s.Rigid) (hw : s.SphericalWrist) (q : ℝ) (p : Vector3 ℝ) :
    (s.axis 1).dot ((s.axisTurn 2 q).apply p) = (s.axis 1).dot p := by
  have hkept := dot_rotation_apply (hs.axis 2) q (s.origin 2) p
  obtain h | h := hw.elbow
  · rwa [← h]
  · have hneg : s.axis 1 = -s.axis 2 := by
      rw [h]
      ext <;> simp
    rw [hneg, neg_dot, neg_dot]
    exact congrArg _ hkept

/-- The center of the wrist is where the arm takes it. -/
theorem center_eq (hs : s.Rigid) (hw : s.SphericalWrist) (q : Angles ℝ) :
    (s.chain q * s.tool.inverse).apply s.wristCenter =
      (s.axisTurn 0 (q.get 0)).apply
        ((s.axisTurn 1 (q.get 1)).apply ((s.axisTurn 2 (q.get 2)).apply s.wristCenter)) := by
  rw [chain_mul_inverse hs, mul_apply (hs.motionOf 3 4 5 _ _ _).bottom, wrist_apply hs hw,
    motionOf_apply hs]

/-- The wrist's center is turned by the second and the third axis only. -/
theorem turnedCenter_eq (hs : s.Rigid) (hw : s.SphericalWrist) (q : Angles ℝ) :
    s.turnedCenter 0 q =
      (s.axisTurn 1 (q.get 1)).apply ((s.axisTurn 2 (q.get 2)).apply s.wristCenter) := by
  rw [turnedCenter, center_eq hs hw, (hs.axisTurn 0 _).inverse_apply_apply]

/-- The chain takes the wrist's center where the arm does. -/
theorem apply_wristCenter (hs : s.Rigid) (hw : s.SphericalWrist) (q : Angles ℝ) :
    (s.chain q * s.tool.inverse).apply s.wristCenter =
      (s.axisTurn 0 (q.get 0)).apply (s.turnedCenter 0 q) := by
  rw [turnedCenter_eq hs hw, center_eq hs hw]

/-- The turned center is in the plane of the center. -/
theorem dot_turnedCenter (hs : s.Rigid) (hw : s.SphericalWrist) (q : Angles ℝ) :
    (s.axis 1).dot (s.turnedCenter 0 q) = (s.axis 1).dot s.wristCenter := by
  rw [turnedCenter_eq hs hw, dot_axisTurn_second hs, dot_axisTurn_third hs hw]

/-- Before the wrist, what the turned center has across the first axis is a multiple of what the
center has. -/
theorem exists_across_eq_scale (hs : s.Rigid) (hw : s.SphericalWrist) {q : Angles ℝ}
    (hq : s.Clear q) :
    ∃ k, 0 < k ∧ s.across 0 (s.turnedCenter 0 q) = (s.across 0 s.wristCenter).scale k := by
  have hplane : (s.axis 1).dot (s.turnedCenter 0 q - s.origin 0) = 0 := by
    rw [dot_sub, dot_turnedCenter hs hw, ← dot_sub, hw.plane]
  -- Both are across the first and the second axis, which leaves one direction.
  have hparallel := scale_of_cross_eq_zero (cross_eq_zero (hs.axis 1) (hs.axis 0) hw.shoulder
    (dot_reject_of_perpendicular hw.shoulder hw.plane)
    (dot_reject_of_perpendicular hw.shoulder hplane)
    (dot_reject (hs.axis 0) (s.wristCenter - s.origin 0))
    (dot_reject (hs.axis 0) (s.turnedCenter 0 q - s.origin 0)))
  have hlength : 0 < (s.across 0 s.wristCenter).dot (s.across 0 s.wristCenter) := by
    have hpos := tiny_pos.trans_le hq.center_first
    rw [← norm_mul_self]
    exact mul_pos hpos hpos
  exact ⟨_, div_pos hq.front hlength, eq_scale_div hlength.ne' hparallel⟩

/-- The first axis is turned as it was. -/
theorem axisTurn_first (hs : s.Rigid) (hw : s.SphericalWrist) {q : Angles ℝ} (hq : s.Clear q) :
    s.axisTurn 0 (turnOnto s.wristCenter ((s.chain q * s.tool.inverse).apply s.wristCenter)
      (s.axis 0) (s.origin 0)) = s.axisTurn 0 (q.get 0) := by
  obtain ⟨k, hk, hscale⟩ := exists_across_eq_scale hs hw hq
  have hturned : s.across 0 ((s.chain q * s.tool.inverse).apply s.wristCenter) =
      (spin (s.axis 0) (q.get 0)).turn (s.across 0 (s.turnedCenter 0 q)) := by
    rw [apply_wristCenter hs hw]
    exact reject_rotation_apply (hs.axis 0) _ _ _
  have hfar : tiny ≤ (s.across 0 ((s.chain q * s.tool.inverse).apply s.wristCenter)).norm := by
    have hnorm := norm_eq_norm_iff.mpr ((spin_rigid (hs.axis 0) (q.get 0)).dot
      (s.across 0 (s.turnedCenter 0 q)) (s.across 0 (s.turnedCenter 0 q)))
    rw [hturned, hnorm]
    exact hq.turned_first
  rw [hscale, turn_scale] at hturned
  obtain ⟨hcos, hsin⟩ := angleAbout_of_turned (hs.axis 0)
    (dot_reject (hs.axis 0) (s.wristCenter - s.origin 0)) hk
    (tiny_pos.trans_le hq.center_first) hturned
  rw [turnOnto_eq hq.center_first hfar]
  exact rotation_congr hcos hsin _ _

/-- Angles of the arm are found, and they take the center of the wrist to its place. -/
theorem exists_armAngles (hs : s.Rigid) (hw : s.SphericalWrist) {q : Angles ℝ} (hq : s.Clear q) :
    ∃ q1 q2 q3,
      s.armAngles? ((s.chain q * s.tool.inverse).apply s.wristCenter) = some (q1, q2, q3) ∧
      (s.armMotion q1 q2 q3).apply s.wristCenter =
        (s.chain q * s.tool.inverse).apply s.wristCenter := by
  have hfirst := axisTurn_first hs hw hq
  -- The second axis does not change the distance from its point, so the elbow makes it.
  have hdistance : (s.turnedCenter 0 q - s.origin 1).norm =
      ((s.axisTurn 2 (q.get 2)).apply s.wristCenter - s.origin 1).norm := by
    rw [turnedCenter_eq hs hw]
    exact norm_rotation_apply_sub (hs.axis 1) _ _ _
  obtain ⟨first, second, hfound, helbows⟩ := exists_turnToDistance (hs.axis 2) hq.center_third
    hq.shoulder_third (q.get 2)
  obtain ⟨q3, hchosen⟩ : ∃ q3, smallestBy wrappedSize first [second] = q3 := ⟨_, rfl⟩
  have helbow := helbows q3 (hchosen ▸ smallestBy_mem _ first [second])
  have hfound' : turnToDistance s.wristCenter (s.origin 1) (s.turnedCenter 0 q - s.origin 1).norm
      (s.axis 2) (s.origin 2) = [first, second] := hdistance ▸ hfound
  have hangles : s.armAngles? ((s.chain q * s.tool.inverse).apply s.wristCenter) =
      some (turnOnto s.wristCenter ((s.chain q * s.tool.inverse).apply s.wristCenter) (s.axis 0)
          (s.origin 0),
        turnOnto ((s.axisTurn 2 q3).apply s.wristCenter) (s.turnedCenter 0 q) (s.axis 1)
          (s.origin 1), q3) := by
    have hturned : (s.axisTurn 0 (q.get 0)).inverse.apply
        ((s.chain q * s.tool.inverse).apply s.wristCenter) = s.turnedCenter 0 q := rfl
    simp only [armAngles?, hfirst, hturned, hfound', hchosen]
  refine ⟨_, _, q3, hangles, ?_⟩
  -- The elbow that is chosen may differ from the one of `q`, but not in what the second axis needs.
  have halong : (s.axis 1).dot ((s.axisTurn 2 q3).apply s.wristCenter - s.origin 1) =
      (s.axis 1).dot (s.turnedCenter 0 q - s.origin 1) := by
    rw [dot_sub, dot_sub, dot_axisTurn_third hs hw, dot_turnedCenter hs hw]
  have hsecond := rotation_turnOnto (hs.axis 1) halong (norm_reject_eq (hs.axis 1) halong
    (norm_eq_norm_iff.mp (helbow.trans hdistance.symm))) hq.turned_second
  rw [armMotion_eq, motionOf_apply hs, hfirst, apply_wristCenter hs hw]
  exact congrArg _ hsecond

end Arm

/-! ### The whole robot -/

/-- The closed form finds angles for a pose that the robot takes, and they reach it. -/
theorem exists_closedForm (hs : s.Rigid) (hw : s.SphericalWrist) {q : Angles ℝ} (hq : s.Clear q) :
    ∃ angles, s.closedForm (s.chain q) = some angles ∧ s.chain angles = s.chain q := by
  obtain ⟨q1, q2, q3, harm, hcenter⟩ := exists_armAngles hs hw hq
  have harmRigid : (s.armMotion q1 q2 q3).Rigid := hs.motionOf 0 1 2 q1 q2 q3
  have hgoal : (s.chain q * s.tool.inverse).Rigid := (hs.chain q).mul hs.tool.inverse
  obtain ⟨q4, q5, q6, hwrist, hmotion⟩ := exists_wristAngles hs hw
    (harmRigid.inverse.mul hgoal)
    (by rw [mul_apply hgoal.bottom, ← hcenter, harmRigid.inverse_apply_apply])
    (by simpa using hq.hand q1 q2 q3 harm)
  refine ⟨#v[q1, q2, q3, q4, q5, q6], by simp [closedForm, harm, hwrist], ?_⟩
  have hchain : s.chain #v[q1, q2, q3, q4, q5, q6] =
      s.armMotion q1 q2 q3 * s.motionOf 3 4 5 q4 q5 q6 * s.tool := s.chain_eq_motions _
  calc s.chain #v[q1, q2, q3, q4, q5, q6]
      = s.armMotion q1 q2 q3 * ((s.armMotion q1 q2 q3).inverse *
          (s.chain q * s.tool.inverse)) * s.tool := by rw [hchain, hmotion]
    _ = s.chain q * s.tool.inverse * s.tool := by
        rw [← mul_assoc (s.armMotion q1 q2 q3), harmRigid.mul_inverse, one_mul]
    _ = s.chain q := by rw [mul_assoc, hs.tool.inverse_mul, mul_one]

/-- Angles that reach a goal pass the test. -/
theorem converged_of_chain_eq {goal : Matrix4 ℝ} {angles : Angles ℝ} (hgoal : goal.Rigid)
    (h : s.chain angles = goal) (htolerance : 0 ≤ s.options.tolerance)
    (horientation : 0 ≤ s.options.orientationTolerance) :
    s.converged (s.errorAt goal angles) = true := by
  have hposition : goal.position - goal.position = ⟨0, 0, 0⟩ := by
    ext <;> simp
  have herror : Matrix4.orientationError goal goal = ⟨0, 0, 0⟩ :=
    (Matrix4.orientationError_eq_zero_iff hgoal hgoal).mpr (.inl fun _ => rfl)
  rw [converged_iff, errorAt, h, hposition, herror, norm_origin]
  exact ⟨htolerance, horientation⟩

/-- For a robot with a spherical wrist, the closed form finds angles for every pose that the robot
takes with the wrist in front and clear of the axes. They reach the pose, though they may differ
from the angles that it was made from, and so a target with that pose as its goal is resolved
without a step of least squares. -/
theorem closedForm_reaches {robot : Robot ℝ} {options : Options ℝ}
    (hs : make robot options = .ok s) (htool : robot.toolFrame.Orthonormal)
    (hw : s.SphericalWrist) {q : Angles ℝ} (hq : s.Clear q) :
    ∃ angles, s.closedForm (s.chain q) = some angles ∧ s.chain angles = s.chain q ∧
      ∀ target slots external owner,
        s.resolveExternal target slots = .ok (external, s.chain q) →
        0 ≤ options.tolerance → 0 ≤ options.orientationTolerance →
        s.resolve target slots owner = .ok ⟨angles.map fun x =>
          Scalar.wrapDegrees (Scalar.degrees x), external, true, [], 0⟩ := by
  have hrigid := rigid_of_make hs htool
  obtain ⟨-, rfl, -, -⟩ := make_eq_ok hs
  obtain ⟨angles, hfound, hreached⟩ := exists_closedForm hrigid hw hq
  refine ⟨angles, hfound, hreached, fun target slots external owner hexternal ht ho => ?_⟩
  have hconverged := converged_of_chain_eq (hrigid.chain q) hreached ht ho
  have hsolve : s.solveGoal (s.chain q) = .ok ⟨angles, 0, true⟩ := by
    simp only [solveGoal, hfound, poseError_eq, Outcome.ok_bind, hconverged, if_true]
    rfl
  rw [resolve, hexternal, Outcome.ok_bind]
  simp only [hsolve, Outcome.ok_bind]
  rfl

/-! ### A pose with the elbow bent the other way -/

/-- The frames of a small arm: the first axis upright, the next two across it at the heights zero
and one, and the wrist in front of the third axis. -/
noncomputable def elbowFrames : Vector (Frame ℝ) 6 :=
  #v[⟨⟨0, 0, 0⟩, ⟨1, 0, 0⟩, ⟨0, 1, 0⟩⟩, ⟨⟨0, 0, 0⟩, ⟨0, 0, 1⟩, ⟨1, 0, 0⟩⟩,
    ⟨⟨0, 0, 1⟩, ⟨0, 0, 1⟩, ⟨1, 0, 0⟩⟩, ⟨⟨0, 0, 1⟩, ⟨0, 1, 0⟩, ⟨0, 0, 1⟩⟩,
    ⟨⟨1, 0, 1⟩, ⟨0, 0, 1⟩, ⟨1, 0, 0⟩⟩, ⟨⟨1, 0, 1⟩, ⟨0, 1, 0⟩, ⟨0, 0, 1⟩⟩]

/-- An arm with an elbow. -/
noncomputable def elbowArm : Robot ℝ := .bare elbowFrames [] wellNumbered_nil

/-- The solver of the small arm. -/
noncomputable def elbowSolver : Solver ℝ :=
  ⟨elbowArm, Options.default,
    #v[⟨⟨0, 0, 0⟩, ⟨0, 0, 1⟩⟩, ⟨⟨0, 0, 0⟩, ⟨0, 1, 0⟩⟩, ⟨⟨0, 0, 1⟩, ⟨0, 1, 0⟩⟩,
      ⟨⟨0, 0, 1⟩, ⟨1, 0, 0⟩⟩, ⟨⟨1, 0, 1⟩, ⟨0, 1, 0⟩⟩, ⟨⟨1, 0, 1⟩, ⟨1, 0, 0⟩⟩], 1⟩

/-- The solver of that arm. -/
theorem make_elbowArm : make elbowArm Options.default = .ok elbowSolver := by
  have haxes (i : Fin 6) : (elbowArm.axisFrames.get i).Orthonormal := by
    fin_cases i <;> constructor <;> simp [elbowArm, Robot.bare, elbowFrames, Vector.get, dot_eq]
  rw [make_of_orthonormal Options.default haxes, elbowSolver]
  simp [elbowArm, Robot.bare, elbowFrames, Frame.world_toMatrix, Frame.zaxis, Vector3.cross]

/-- The axes of that arm are unit vectors, and its tool is rigid. -/
theorem elbowSolver_rigid : elbowSolver.Rigid :=
  rigid_of_make make_elbowArm Frame.world_orthonormal

/-- The wrist of that arm is spherical. -/
theorem elbowSolver_sphericalWrist : elbowSolver.SphericalWrist where
  elbow := .inl rfl
  shoulder := by
    change (⟨0, 1, 0⟩ : Vector3 ℝ).dot ⟨0, 0, 1⟩ = 0
    simp [dot_eq]
  plane := by
    change (⟨0, 1, 0⟩ : Vector3 ℝ).dot (⟨1, 0, 1⟩ - ⟨0, 0, 0⟩) = 0
    simp [dot_eq]
  fourth := by
    refine ⟨1, ?_⟩
    change (⟨1, 0, 1⟩ : Vector3 ℝ) = ⟨0, 0, 1⟩ + Vector3.scale 1 ⟨1, 0, 0⟩
    ext <;> simp
  sixth := by
    refine ⟨0, ?_⟩
    change (⟨1, 0, 1⟩ : Vector3 ℝ) = ⟨1, 0, 1⟩ + Vector3.scale 0 ⟨1, 0, 0⟩
    ext <;> simp
  fourth_fifth := by
    change (⟨1, 0, 0⟩ : Vector3 ℝ).dot ⟨0, 1, 0⟩ = 0
    simp [dot_eq]
  fifth_sixth := by
    change (⟨0, 1, 0⟩ : Vector3 ℝ).dot ⟨1, 0, 0⟩ = 0
    simp [dot_eq]

/-- The elbow turned over, and the upper arm turned by some angle. -/
noncomputable def elbowPose (shoulder : ℝ) : Angles ℝ := #v[0, shoulder, Real.pi, 0, 0, 0]

/-- An axis of that arm that is not turned moves nothing. -/
theorem elbowSolver_axisTurn_zero (i : Fin 6) : elbowSolver.axisTurn i 0 = 1 :=
  rotation_zero (elbowSolver_rigid.axis i) _

/-- A rotation about the second axis of the world. -/
theorem spin_unitY_turn (θ : ℝ) (v : Vector3 ℝ) : (spin ⟨0, 1, 0⟩ θ).turn v =
    ⟨v.x * Real.cos θ + v.z * Real.sin θ, v.y, v.z * Real.cos θ - v.x * Real.sin θ⟩ := by
  rw [spin_turn]
  ext <;> simp [dot_eq] <;> ring

/-- The center of the wrist in this pose, with the shoulder turned by a right angle. -/
theorem elbowSolver_turnedCenter :
    elbowSolver.turnedCenter 0 (elbowPose (Real.pi / 2)) = ⟨1, 0, 1⟩ := by
  have hunit : (⟨0, 1, 0⟩ : Vector3 ℝ).dot ⟨0, 1, 0⟩ = 1 := by simp [dot_eq]
  rw [turnedCenter_eq elbowSolver_rigid elbowSolver_sphericalWrist]
  change (rotation ⟨0, 1, 0⟩ (Real.pi / 2) ⟨0, 0, 0⟩).apply
    ((rotation ⟨0, 1, 0⟩ Real.pi ⟨0, 0, 1⟩).apply ⟨1, 0, 1⟩) = ⟨1, 0, 1⟩
  rw [rotation_apply hunit, rotation_apply hunit, spin_unitY_turn, spin_unitY_turn]
  ext <;> simp

/-- In this pose the center of the wrist is where it is at zero. -/
theorem elbowSolver_center :
    (elbowSolver.chain (elbowPose (Real.pi / 2)) * elbowSolver.tool.inverse).apply
      elbowSolver.wristCenter = ⟨1, 0, 1⟩ := by
  have hfirst : (elbowPose (Real.pi / 2)).get 0 = 0 := rfl
  rw [apply_wristCenter elbowSolver_rigid elbowSolver_sphericalWrist, elbowSolver_turnedCenter,
    hfirst, elbowSolver_axisTurn_zero, one_apply]

/-- Zero is no turn at all. -/
theorem wrappedSize_zero : wrappedSize (0 : ℝ) = 0 := by
  rw [wrappedSize, Scalar.wrapDegrees_real, Scalar.degrees_real, Scalar.abs_real]
  norm_num

/-- Half a turn has a hundred and eighty degrees. -/
theorem wrappedSize_pi : wrappedSize Real.pi = 180 := by
  have hdegrees : Scalar.degrees Real.pi = 180 := by
    rw [Scalar.degrees_real]
    field_simp
  rw [wrappedSize, hdegrees, Scalar.wrapDegrees_real, Scalar.abs_real]
  norm_num

/-- Two elbows bring the center of the wrist to the distance that it has. -/
theorem turnToDistance_elbow : turnToDistance (⟨1, 0, 1⟩ : Vector3 ℝ) ⟨0, 0, 0⟩
    ((⟨1, 0, 1⟩ : Vector3 ℝ) - ⟨0, 0, 0⟩).norm ⟨0, 1, 0⟩ ⟨0, 0, 1⟩ = [Real.pi, 0] := by
  have hu : ((⟨1, 0, 1⟩ : Vector3 ℝ) - ⟨0, 0, 1⟩).reject ⟨0, 1, 0⟩ = ⟨1, 0, 0⟩ := by
    ext <;> simp [reject_eq, dot_eq]
  have hv : ((⟨0, 0, 0⟩ : Vector3 ℝ) - ⟨0, 0, 1⟩).reject ⟨0, 1, 0⟩ = ⟨0, 0, -1⟩ := by
    ext <;> simp [reject_eq, dot_eq]
  -- The forearm and the upper arm are at a right angle.
  have hright : angleAbout ⟨0, 1, 0⟩ ⟨1, 0, 0⟩ ⟨0, 0, -1⟩ = Real.pi / 2 := by
    have hsin : (⟨0, 1, 0⟩ : Vector3 ℝ).dot (Vector3.cross ⟨1, 0, 0⟩ ⟨0, 0, -1⟩) = 1 := by
      simp [dot_eq]
    have hcos : (⟨1, 0, 0⟩ : Vector3 ℝ).dot ⟨0, 0, -1⟩ = 0 := by simp [dot_eq]
    rw [angleAbout, hsin, hcos]
    exact Complex.arg_I
  rw [turnToDistance_eq (c := 0) (by rw [hu]; exact tiny_le_norm (by simp [dot_eq]))
    (by rw [hv]; exact tiny_le_norm (by simp [dot_eq])) (by norm_num), hu, hv, hright,
    Real.arccos_zero]
  · rw [add_halves, sub_self]
  · rw [hu, hv, norm_mul_self]
    simp [dot_eq]

/-- For the center of the wrist in this pose the arm is left as it is. -/
theorem elbowSolver_armAngles : elbowSolver.armAngles? ⟨1, 0, 1⟩ = some (0, 0, 0) := by
  have hfirst : turnOnto (⟨1, 0, 1⟩ : Vector3 ℝ) ⟨1, 0, 1⟩ ⟨0, 0, 1⟩ ⟨0, 0, 0⟩ = 0 :=
    turnOnto_self _ _ _
  have hchosen : smallestBy wrappedSize Real.pi [0] = 0 := by
    simp [smallestBy, wrappedSize_zero, wrappedSize_pi]
  have hcenter : elbowSolver.wristCenter = ⟨1, 0, 1⟩ := rfl
  -- With the elbow at zero the wrist is in place, and nothing is left to turn.
  have hline0 : elbowSolver.lines.get 0 = ⟨⟨0, 0, 0⟩, ⟨0, 0, 1⟩⟩ := rfl
  have hline1 : elbowSolver.lines.get 1 = ⟨⟨0, 0, 0⟩, ⟨0, 1, 0⟩⟩ := rfl
  have hline2 : elbowSolver.lines.get 2 = ⟨⟨0, 0, 1⟩, ⟨0, 1, 0⟩⟩ := rfl
  simp only [armAngles?, hcenter, hline0, hline1, hline2, hfirst, elbowSolver_axisTurn_zero,
    Rigid.inverse_one, one_apply, turnToDistance_elbow, hchosen, turnOnto_self]

/-- The pose turns directions by three quarters of a turn. -/
theorem elbowSolver_turn (v : Vector3 ℝ) :
    (elbowSolver.chain (elbowPose (Real.pi / 2)) * elbowSolver.tool.inverse).turn v =
      ⟨-v.z, v.y, v.x⟩ := by
  have hmotion : elbowSolver.chain (elbowPose (Real.pi / 2)) * elbowSolver.tool.inverse =
      elbowSolver.axisTurn 1 (Real.pi / 2) * elbowSolver.axisTurn 2 Real.pi := by
    rw [chain_mul_inverse elbowSolver_rigid]
    change elbowSolver.axisTurn 0 0 * elbowSolver.axisTurn 1 (Real.pi / 2) *
      elbowSolver.axisTurn 2 Real.pi * (elbowSolver.axisTurn 3 0 * elbowSolver.axisTurn 4 0 *
        elbowSolver.axisTurn 5 0) = _
    simp only [elbowSolver_axisTurn_zero, one_mul, mul_one]
  rw [hmotion, mul_turn (elbowSolver_rigid.axisTurn 2 Real.pi).bottom, axisTurn, axisTurn,
    rotation_turn (elbowSolver_rigid.axis 2), rotation_turn (elbowSolver_rigid.axis 1)]
  change (spin ⟨0, 1, 0⟩ (Real.pi / 2)).turn ((spin ⟨0, 1, 0⟩ Real.pi).turn v) = _
  rw [spin_unitY_turn, spin_unitY_turn]
  ext <;> simp

/-- The pose of the turned elbow is in front and clear of the axes. -/
theorem elbowSolver_clear : elbowSolver.Clear (elbowPose (Real.pi / 2)) := by
  have hcenter : elbowSolver.wristCenter = ⟨1, 0, 1⟩ := rfl
  have hfirst : elbowSolver.across 0 ⟨1, 0, 1⟩ = ⟨1, 0, 0⟩ := by
    change ((⟨1, 0, 1⟩ : Vector3 ℝ) - ⟨0, 0, 0⟩).reject ⟨0, 0, 1⟩ = ⟨1, 0, 0⟩
    ext <;> simp [reject_eq, dot_eq]
  have hsecond : elbowSolver.across 1 ⟨1, 0, 1⟩ = ⟨1, 0, 1⟩ := by
    change ((⟨1, 0, 1⟩ : Vector3 ℝ) - ⟨0, 0, 0⟩).reject ⟨0, 1, 0⟩ = ⟨1, 0, 1⟩
    ext <;> simp [reject_eq, dot_eq]
  have hthird : elbowSolver.across 2 ⟨1, 0, 1⟩ = ⟨1, 0, 0⟩ := by
    change ((⟨1, 0, 1⟩ : Vector3 ℝ) - ⟨0, 0, 1⟩).reject ⟨0, 1, 0⟩ = ⟨1, 0, 0⟩
    ext <;> simp [reject_eq, dot_eq]
  have hupper : elbowSolver.across 2 (elbowSolver.origin 1) = ⟨0, 0, -1⟩ := by
    change ((⟨0, 0, 0⟩ : Vector3 ℝ) - ⟨0, 0, 1⟩).reject ⟨0, 1, 0⟩ = ⟨0, 0, -1⟩
    ext <;> simp [reject_eq, dot_eq]
  have hunit : tiny ≤ (⟨1, 0, 0⟩ : Vector3 ℝ).norm := tiny_le_norm (by simp [dot_eq])
  refine ⟨?_, ?_, ?_, ?_, ?_, ?_, ?_⟩
  · rw [elbowSolver_turnedCenter, hcenter, hfirst]
    simp [dot_eq]
  · rwa [hcenter, hfirst]
  · rwa [elbowSolver_turnedCenter, hfirst]
  · rwa [hcenter, hthird]
  · rw [hupper]
    exact tiny_le_norm (by simp [dot_eq])
  · rw [elbowSolver_turnedCenter, hsecond]
    exact Real.le_sqrt_of_sq_le (by norm_num [tiny, dot_eq])
  · intro q1 q2 q3 harm
    rw [elbowSolver_center, elbowSolver_armAngles] at harm
    cases harm
    have harm : elbowSolver.armMotion 0 0 0 = 1 := by
      simp only [armMotion, elbowSolver_axisTurn_zero, one_mul]
    have hhand : ((elbowSolver.chain (elbowPose (Real.pi / 2)) * elbowSolver.tool.inverse).turn
        (elbowSolver.axis 5)).reject (elbowSolver.axis 3) = ⟨0, 0, 1⟩ := by
      rw [elbowSolver_turn]
      change (⟨-0, 0, 1⟩ : Vector3 ℝ).reject ⟨1, 0, 0⟩ = _
      ext <;> simp [reject_eq, dot_eq]
    rw [harm, Rigid.inverse_one, one_mul, hhand]
    exact .inr (tiny_le_norm (by simp [dot_eq]))

/-- The tool on its side, at some distance along the first axis of the world. -/
noncomputable def elbowTarget (distance : ℝ) : Frame ℝ :=
  ⟨⟨distance, 0, 0⟩, ⟨0, 0, 1⟩, ⟨0, 1, 0⟩⟩

/-- The axes of that target are perpendicular unit vectors. -/
theorem elbowTarget_orthonormal (distance : ℝ) : (elbowTarget distance).Orthonormal where
  xx := by simp [elbowTarget, dot_eq]
  yy := by simp [elbowTarget, dot_eq]
  xy := by simp [elbowTarget, dot_eq]

/-- That target is the pose of the shoulder turned by a right angle. -/
theorem elbowTarget_toMatrix :
    (elbowTarget 2).toMatrix =
      elbowSolver.chain (elbowPose (Real.pi / 2)) * elbowSolver.tool.inverse := by
  have hmotion : (elbowSolver.chain (elbowPose (Real.pi / 2)) * elbowSolver.tool.inverse).Rigid :=
    (elbowSolver_rigid.chain _).mul elbowSolver_rigid.tool.inverse
  have hturn (v : Vector3 ℝ) : (elbowTarget 2).toMatrix.turn v = ⟨-v.z, v.y, v.x⟩ := by
    rw [Frame.toMatrix, ofColumns_turn]
    ext <;> simp [elbowTarget, Frame.zaxis]
  have hcenter : (elbowTarget 2).toMatrix.apply ⟨1, 0, 1⟩ = ⟨1, 0, 1⟩ := by
    rw [Matrix4.apply, hturn]
    ext <;> norm_num [elbowTarget, Frame.toMatrix]
  refine (elbowTarget_orthonormal 2).rigid.eq_of_agree hmotion (a := ⟨1, 0, 0⟩) (b := ⟨0, 1, 0⟩)
    (by simp [dot_eq]) (by simp [dot_eq]) (by simp [dot_eq]) ?_ ?_
    (hcenter.trans elbowSolver_center.symm)
  · rw [hturn, elbowSolver_turn]
  · rw [hturn, elbowSolver_turn]

/-- The arm has no mechanisms, so that the target is its own goal. -/
theorem elbowSolver_resolveExternal : elbowSolver.resolveExternal (elbowTarget 2) noSlots =
    .ok (noSlots, elbowSolver.chain (elbowPose (Real.pi / 2))) := by
  have hgoal : elbowSolver.resolveExternal (elbowTarget 2) noSlots =
      .ok (noSlots, (Frame.world : Frame ℝ).toMatrix.inverse * (elbowTarget 2).toMatrix) := rfl
  have htool : elbowSolver.tool.inverse = 1 := Rigid.inverse_one
  rw [hgoal, Frame.world_toMatrix, Rigid.inverse_one, one_mul, elbowTarget_toMatrix, htool, mul_one]

/-- The pose with the elbow turned over is reached with the elbow as it was. -/
theorem closedForm_reaches_elbow :
    make elbowArm Options.default = .ok elbowSolver ∧ elbowArm.toolFrame.Orthonormal ∧
      elbowSolver.SphericalWrist ∧ elbowSolver.Clear (elbowPose (Real.pi / 2)) ∧
      ∃ angles, elbowSolver.closedForm (elbowSolver.chain (elbowPose (Real.pi / 2))) = some angles ∧
        elbowSolver.chain angles = elbowSolver.chain (elbowPose (Real.pi / 2)) ∧
        angles.get 2 ≠ (elbowPose (Real.pi / 2)).get 2 ∧
        elbowSolver.resolve (elbowTarget 2) noSlots "Target" = .ok ⟨angles.map fun x =>
          Scalar.wrapDegrees (Scalar.degrees x), noSlots, true, [], 0⟩ := by
  obtain ⟨angles, hfound, hreached, hresolve⟩ := closedForm_reaches make_elbowArm
    Frame.world_orthonormal elbowSolver_sphericalWrist elbowSolver_clear
  refine ⟨make_elbowArm, Frame.world_orthonormal, elbowSolver_sphericalWrist, elbowSolver_clear,
    angles, hfound, hreached, ?_, hresolve _ _ _ _ elbowSolver_resolveExternal ?_ ?_⟩
  · have hthird : angles.get 2 = 0 := by
      simp only [closedForm, elbowSolver_center, elbowSolver_armAngles] at hfound
      obtain ⟨arm, harm, hwrist⟩ := Option.bind_eq_some_iff.mp hfound
      obtain rfl := Option.some.inj harm
      obtain ⟨wrist, -, hangles⟩ := Option.bind_eq_some_iff.mp hwrist
      rw [← Option.some.inj hangles]
      rfl
    rw [hthird]
    exact Real.pi_ne_zero.symm
  · norm_num [Options.default]
  · norm_num [Options.default]

end RobotProgram.Kinematics.Solver
