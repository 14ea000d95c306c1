import RobotProgram.Proofs.ExternalAxes

/-!
# Values of mechanisms

The value that a mechanism gets for a target, and where the target is once the mechanism has moved.
Points are given by their coordinates in the frame of the mechanism (`Frame.coordinates`), where a
rotation about the third axis turns the plane of the other two (`Frame.coordinates_rotation`).

A positioner turns a target onto the half plane of its first and third axis, at the distance from
its axis that the target has. A track that is moved back by its value is level with the target.
Either then asks for no further motion (`Mechanism.position_serves`).
-/

namespace RobotProgram

namespace Scalar

/-- A point straight ahead is at no angle. -/
theorem atan2_zero {r : ℝ} (hr : 0 ≤ r) : atan2 0 r = 0 := Complex.arg_ofReal_of_nonneg hr

/-- Degrees go back to radians. -/
theorem radians_neg_degrees (q : ℝ) : radians (-degrees q) = -q := by
  have hpi : Real.pi ≠ 0 := Real.pi_ne_zero
  rw [radians_real, degrees_real]
  field_simp

end Scalar

/-! ### Coordinates in a frame -/

namespace Frame

variable {f : Frame ℝ}

/-- How far a point is along each axis of a frame. -/
noncomputable def coordinates (f : Frame ℝ) (p : Vector3 ℝ) : Vector3 ℝ :=
  ⟨(p - f.point).dot f.xaxis, (p - f.point).dot f.yaxis, (p - f.point).dot f.zaxis⟩

/-- Turning a vector back into a frame gives its parts along the axes. -/
theorem toMatrix_turnBack_turn (f : Frame ℝ) (v : Vector3 ℝ) :
    f.toMatrix.turnBack.turn v = ⟨v.dot f.xaxis, v.dot f.yaxis, v.dot f.zaxis⟩ := by
  rw [Vector3.dot_comm v, Vector3.dot_comm v, Vector3.dot_comm v]
  ext
  · simp [toMatrix, Matrix4.turnBack, Matrix4.ofColumns, Vector3.dot_eq]
  · simp [toMatrix, Matrix4.turnBack, Matrix4.ofColumns, Vector3.dot_eq]
  · simp [toMatrix, Matrix4.turnBack, Matrix4.ofColumns, Vector3.dot_eq]

/-- There is one point with given coordinates, and the motion onto the frame finds it. -/
theorem coordinates_eq_iff (hf : f.Orthonormal) {p q : Vector3 ℝ} :
    f.coordinates p = q ↔ p = f.toMatrix.apply q := by
  have happly : f.toMatrix.apply q = f.toMatrix.turn q + f.point := rfl
  rw [coordinates, ← toMatrix_turnBack_turn, happly]
  constructor
  · rintro rfl
    rw [hf.rigid.turn_turnBack]
    ext <;> simp
  · rintro rfl
    have hsub : f.toMatrix.turn q + f.point - f.point = f.toMatrix.turn q := by
      ext <;> simp
    rw [hsub, hf.rigid.turnBack_turn]

/-- The first axis of a frame is perpendicular to the third. -/
theorem xaxis_dot_zaxis (f : Frame ℝ) : f.xaxis.dot f.zaxis = 0 := Vector3.dot_cross_left _ _

/-- The second axis of a frame is perpendicular to the third. -/
theorem yaxis_dot_zaxis (f : Frame ℝ) : f.yaxis.dot f.zaxis = 0 := Vector3.dot_cross_right _ _

/-- A quarter turn about the third axis, by the coordinates along the other two. -/
theorem zaxis_cross (f : Frame ℝ) (v : Vector3 ℝ) :
    f.zaxis.cross v = f.yaxis.scale (f.xaxis.dot v) - f.xaxis.scale (f.yaxis.dot v) := by
  ext
  · simp only [zaxis, Vector3.dot_eq, Vector3.cross_x, Vector3.cross_y, Vector3.cross_z,
      Vector3.sub_x, Vector3.scale_x]
    ring
  · simp only [zaxis, Vector3.dot_eq, Vector3.cross_x, Vector3.cross_y, Vector3.cross_z,
      Vector3.sub_y, Vector3.scale_y]
    ring
  · simp only [zaxis, Vector3.dot_eq, Vector3.cross_x, Vector3.cross_y, Vector3.cross_z,
      Vector3.sub_z, Vector3.scale_z]
    ring

/-- A rotation about the third axis turns the first two coordinates and keeps the third. -/
theorem coordinates_rotation (hf : f.Orthonormal) (θ : ℝ) {p : Vector3 ℝ} {x y z : ℝ}
    (h : f.coordinates p = ⟨x, y, z⟩) :
    f.coordinates ((Matrix4.rotation f.zaxis θ f.point).apply p) =
      ⟨x * Real.cos θ - y * Real.sin θ, x * Real.sin θ + y * Real.cos θ, z⟩ := by
  simp only [coordinates, Vector3.mk.injEq] at h
  obtain ⟨hx, hy, hz⟩ := h
  -- What the turned point has along any direction.
  have hdot (a : Vector3 ℝ) :
      ((Matrix4.rotation f.zaxis θ f.point).apply p - f.point).dot a =
        (p - f.point).dot a * Real.cos θ +
          (x * f.yaxis.dot a - y * f.xaxis.dot a) * Real.sin θ +
          z * (1 - Real.cos θ) * f.zaxis.dot a := by
    rw [Matrix4.rotation_apply_sub hf.zz, Matrix4.spin_turn, zaxis_cross, Vector3.dot_comm f.xaxis,
      Vector3.dot_comm f.yaxis, Vector3.dot_comm f.zaxis, hx, hy, hz]
    simp only [Vector3.dot_eq, Vector3.add_x, Vector3.add_y, Vector3.add_z, Vector3.sub_x,
      Vector3.sub_y, Vector3.sub_z, Vector3.scale_x, Vector3.scale_y, Vector3.scale_z]
    ring
  rw [coordinates, hdot, hdot, hdot, hx, hy, hz, Vector3.dot_comm f.yaxis f.xaxis,
    Vector3.dot_comm f.zaxis f.xaxis, Vector3.dot_comm f.zaxis f.yaxis, hf.xx, hf.yy, hf.zz, hf.xy,
    xaxis_dot_zaxis, yaxis_dot_zaxis]
  ext
  · ring
  · ring
  · ring

/-- Turning by minus the angle of a point brings it onto the half plane of the first axis. -/
theorem coordinates_rotation_neg_atan2 (hf : f.Orthonormal) {p : Vector3 ℝ} {x y z : ℝ}
    (h : f.coordinates p = ⟨x, y, z⟩) (hpos : 0 < x ^ 2 + y ^ 2) :
    f.coordinates ((Matrix4.rotation f.zaxis (-Scalar.atan2 y x) f.point).apply p) =
      ⟨√(x ^ 2 + y ^ 2), 0, z⟩ := by
  have hsquare : √(x ^ 2 + y ^ 2) * √(x ^ 2 + y ^ 2) = x * x + y * y := by
    rw [Real.mul_self_sqrt hpos.le]
    ring
  have hr := Real.sqrt_pos.mpr hpos
  generalize √(x ^ 2 + y ^ 2) = r at hr hsquare ⊢
  have hcos : Real.cos (-Scalar.atan2 y x) = x / r := by
    rw [Real.cos_neg, Scalar.cos_atan2 hr hsquare.symm]
  have hsin : Real.sin (-Scalar.atan2 y x) = -(y / r) := by
    rw [Real.sin_neg, Scalar.sin_atan2 hr hsquare.symm]
  -- The angle taken back is that of the point, so nothing is left of the second coordinate.
  have hahead : x * (x / r) - y * -(y / r) = r := by
    field_simp
    linear_combination -hsquare
  have haside : x * -(y / r) + y * (x / r) = 0 := by ring
  rw [coordinates_rotation hf _ h, hcos, hsin, hahead, haside]

end Frame

/-! ### Values that serve a target -/

/-- A displacement is undone by moving back. -/
theorem Matrix4.displacement_inverse_apply (v p : Vector3 ℝ) :
    (displacement v).inverse.apply p = p - v := by
  have hthere : (displacement v).apply (p - v) = p := by
    ext <;> simp [apply, displacement]
  nth_rewrite 1 [← hthere]
  exact (Rigid.displacement v).inverse_apply_apply _

namespace Mechanism

variable {m : Mechanism ℝ}

/-- The angle for a point, from its coordinates. -/
theorem turnPosition_eq (hm : m.frame.Orthonormal) {p : Vector3 ℝ} {x y z : ℝ}
    (h : m.frame.coordinates p = ⟨x, y, z⟩) :
    m.turnPosition p = .ok (if |x| < 1 / 10 ^ 12 ∧ |y| < 1 / 10 ^ 12 then 0
      else -Scalar.degrees (Scalar.atan2 y x)) := by
  simp only [Frame.coordinates, Vector3.mk.injEq] at h
  obtain ⟨hx, hy, -⟩ := h
  have htiny : (Scalar.ratio 1 1000000000000 : ℝ) = 1 / 10 ^ 12 := by norm_num
  rw [turnPosition, Vector3.unit_of_dot_self hm.xx, Vector3.unit_of_dot_self hm.yy]
  simp only [Outcome.ok_bind, origin, hx, hy, htiny]
  by_cases hnear : |x| < 1 / 10 ^ 12 ∧ |y| < 1 / 10 ^ 12
  · rw [if_pos hnear, if_pos (by simpa using hnear), Scalar.nat_real, Nat.cast_zero]
    rfl
  · rw [if_neg hnear, if_neg (by simpa using hnear)]
    rfl

/-- A positioner rotates about its axis. -/
theorem motion_rotational (hm : m.frame.Orthonormal) (hkind : m.kind = .rotational) (value : ℝ) :
    m.motion value =
      .ok (Matrix4.rotation m.frame.zaxis (Scalar.radians value) m.frame.point) := by
  rw [motion, hkind]
  change (m.direction >>= fun d => Matrix4.rotation? d (Scalar.radians value) m.origin) = _
  rw [direction_eq hm]
  rfl

/-- A positioner turns a target that is off its axis ahead, and then turns no further. -/
theorem turnPosition_serves (hm : m.frame.Orthonormal) {p : Vector3 ℝ} {x y z : ℝ}
    (h : m.frame.coordinates p = ⟨x, y, z⟩) (hfar : ¬(|x| < 1 / 10 ^ 12 ∧ |y| < 1 / 10 ^ 12)) :
    m.turnPosition p = .ok (-Scalar.degrees (Scalar.atan2 y x)) ∧
    m.frame.coordinates ((Matrix4.rotation m.frame.zaxis (-Scalar.atan2 y x) m.frame.point).apply p)
      = ⟨√(x ^ 2 + y ^ 2), 0, z⟩ ∧
    m.turnPosition ((Matrix4.rotation m.frame.zaxis (-Scalar.atan2 y x) m.frame.point).apply p) =
      .ok 0 := by
  -- A point on the axis itself would pass the test for points near it.
  have hpos : 0 < x ^ 2 + y ^ 2 := by
    by_contra hzero
    have hx : x = 0 := by nlinarith [sq_nonneg x, sq_nonneg y]
    have hy : y = 0 := by nlinarith [sq_nonneg x, sq_nonneg y]
    exact hfar (by norm_num [hx, hy])
  have hturned := Frame.coordinates_rotation_neg_atan2 hm h hpos
  refine ⟨?_, hturned, ?_⟩
  · rw [turnPosition_eq hm h, if_neg hfar]
  · rw [turnPosition_eq hm hturned, Scalar.atan2_zero (Real.sqrt_nonneg _)]
    simp

/-- A track moves along its direction. -/
theorem motion_linear {d : Vector3 ℝ} (hkind : m.kind = .linear) (hd : m.direction = .ok d)
    (value : ℝ) : m.motion value = .ok (.displacement (d.scale value)) := by
  rw [motion, hkind]
  change (m.direction >>= fun d => pure (Matrix4.displacement (d.scale value))) = _
  rw [hd]
  rfl

/-- The value of a track is how far a point is along its direction. -/
theorem trackPosition_eq {d : Vector3 ℝ} (hd : m.direction = .ok d) (p : Vector3 ℝ) :
    m.trackPosition p = .ok ((p - m.origin).dot d) := by
  rw [trackPosition, hd]
  rfl

/-- Moving a point back along a track takes as much from its value. -/
theorem dot_sub_scale {d : Vector3 ℝ} (hd : d.dot d = 1) (o p : Vector3 ℝ) (value : ℝ) :
    (p - d.scale value - o).dot d = (p - o).dot d - value := by
  simp only [Vector3.dot_eq, Vector3.sub_x, Vector3.sub_y, Vector3.sub_z, Vector3.scale_x,
    Vector3.scale_y, Vector3.scale_z] at hd ⊢
  linear_combination -value * hd

/-- A mechanism serves the target that it gets its value for. A positioner turns a point off its
axis to the half plane of the first and third axis of its frame, at the distance from the axis and
the height that the point has; a track that is moved back along its direction has the point level
with its origin. Either way the value for the point is zero afterwards. -/
theorem position_serves (m : Mechanism ℝ) (p : Vector3 ℝ) :
    (m.kind = .rotational → m.frame.Orthonormal → ∀ x y z, m.frame.coordinates p = ⟨x, y, z⟩ →
      ¬(|x| < 1 / 10 ^ 12 ∧ |y| < 1 / 10 ^ 12) →
      ∃ value t, m.position p = .ok value ∧ m.motion value = .ok t ∧
        t.apply p = m.frame.toMatrix.apply ⟨√(x ^ 2 + y ^ 2), 0, z⟩ ∧
        m.frame.coordinates (t.apply p) = ⟨√(x ^ 2 + y ^ 2), 0, z⟩ ∧
        m.position (t.apply p) = .ok 0) ∧
    (m.kind = .linear → m.frame.zaxis ≠ ⟨0, 0, 0⟩ →
      ∃ value t, m.position p = .ok value ∧ m.motion value = .ok t ∧
        m.position (t.inverse.apply p) = .ok 0) := by
  constructor
  · intro hkind hm x y z h hfar
    obtain ⟨hvalue, hturned, hzero⟩ := turnPosition_serves hm h hfar
    have hposition (q : Vector3 ℝ) : m.position q = m.turnPosition q := by rw [position, hkind]
    have hmotion := motion_rotational hm hkind (-Scalar.degrees (Scalar.atan2 y x))
    rw [Scalar.radians_neg_degrees] at hmotion
    rw [← hposition] at hvalue hzero
    exact ⟨_, _, hvalue, hmotion, (Frame.coordinates_eq_iff hm).mp hturned, hturned, hzero⟩
  · intro hkind hz
    have hd : m.direction = .ok _ := Vector3.unit_of_ne_zero hz
    have hunit := Vector3.dot_self_of_unit hd
    generalize m.frame.zaxis.divide m.frame.zaxis.norm = d at hd hunit
    have hposition (q : Vector3 ℝ) : m.position q = .ok ((q - m.origin).dot d) := by
      rw [position, hkind]
      exact trackPosition_eq hd q
    refine ⟨_, _, hposition p, motion_linear hkind hd _, ?_⟩
    rw [hposition, Matrix4.displacement_inverse_apply, dot_sub_scale hunit, sub_self]

/-- A positioner whose axis lies along the first axis of the world. -/
noncomputable def spindle : Mechanism ℝ :=
  ⟨.text "spindle", .rotational, ⟨⟨1250, 0, 0⟩, .unitY, .unitZ⟩, .fullTurn, 1, .text "b"⟩

/-- A track along the first axis of the world. -/
noncomputable def rail : Mechanism ℝ :=
  ⟨.text "rail", .linear, ⟨⟨100, 0, 0⟩, .unitY, .unitZ⟩, ⟨0, 3000⟩, 0, .text "a"⟩

/-- The spindle turns the point ahead, and the rail moves to it. -/
theorem position_serves_spindle :
    ∃ value t, spindle.position ⟨0, 300, 400⟩ = .ok value ∧ spindle.motion value = .ok t ∧
      t.apply ⟨0, 300, 400⟩ = spindle.frame.toMatrix.apply ⟨500, 0, -1250⟩ ∧
      spindle.position (t.apply ⟨0, 300, 400⟩) = .ok 0 ∧
    ∃ value t, rail.position ⟨0, 300, 400⟩ = .ok value ∧ rail.motion value = .ok t ∧
      rail.position (t.inverse.apply ⟨0, 300, 400⟩) = .ok 0 := by
  have horthonormal : spindle.frame.Orthonormal :=
    ⟨by simp [spindle, Vector3.dot_eq], by simp [spindle, Vector3.dot_eq],
      by simp [spindle, Vector3.dot_eq]⟩
  have hcoordinates : spindle.frame.coordinates ⟨0, 300, 400⟩ = ⟨300, 400, -1250⟩ := by
    ext <;> simp [Frame.coordinates, Frame.zaxis, spindle, Vector3.dot_eq]
  have hfar : ¬(|(300 : ℝ)| < 1 / 10 ^ 12 ∧ |(400 : ℝ)| < 1 / 10 ^ 12) := by norm_num
  have hradius : √((300 : ℝ) ^ 2 + 400 ^ 2) = 500 := by
    rw [show (300 : ℝ) ^ 2 + 400 ^ 2 = 500 * 500 by norm_num]
    exact Real.sqrt_mul_self (by norm_num)
  have hrail : rail.frame.zaxis ≠ ⟨0, 0, 0⟩ := by simp [rail, Frame.zaxis, Vector3.cross]
  obtain ⟨value, t, hvalue, hmotion, hturned, -, hzero⟩ :=
    (position_serves spindle ⟨0, 300, 400⟩).1 rfl horthonormal _ _ _ hcoordinates hfar
  rw [hradius] at hturned
  exact ⟨value, t, hvalue, hmotion, hturned, hzero,
    (position_serves rail ⟨0, 300, 400⟩).2 rfl hrail⟩

end Mechanism

end RobotProgram
