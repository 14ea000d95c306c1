import RobotProgram.Proofs.RigidMotions

/-!
# Rotations

The rotation about a line turns directions by the formula of Rodrigues (`spin_turn`). It is rigid
(`rotation_rigid`), keeps the points of its line, and depends on its angle only through the sine and
the cosine, hence up to whole turns (`rotation_congr`).
-/

namespace RobotProgram

namespace Vector3

/-- The scalar product of two vectors that are combined alike with an axis. -/
theorem dot_combination (w a b : Vector3 ℝ) (c s k : ℝ) :
    (a.scale c + (w.cross a).scale s + w.scale (w.dot a * k)).dot
        (b.scale c + (w.cross b).scale s + w.scale (w.dot b * k)) =
      a.dot b * (c * c + s * s * w.dot w) +
        w.dot a * w.dot b * (k * k * w.dot w + 2 * c * k - s * s) := by
  simp only [dot_eq, add_x, add_y, add_z, scale_x, scale_y, scale_z, cross_x, cross_y, cross_z]
  ring

/-- The vector product of two vectors that are combined alike with an axis. -/
theorem cross_combination (w a b : Vector3 ℝ) (c s k : ℝ) :
    (a.scale c + (w.cross a).scale s + w.scale (w.dot a * k)).cross
        (b.scale c + (w.cross b).scale s + w.scale (w.dot b * k)) =
      (a.cross b).scale (c * c + c * k * w.dot w) +
        (w.cross (a.cross b)).scale (c * s + s * k * w.dot w) +
        w.scale (w.dot (a.cross b) * (s * s - c * k)) := by
  ext <;> simp only [dot_eq, add_x, add_y, add_z, scale_x, scale_y, scale_z, cross_x, cross_y,
    cross_z] <;> ring

end Vector3

namespace Matrix4

variable {w : Vector3 ℝ}

/-- A rotation as a sum of the direction, its product with the axis, and the axis. -/
theorem spin_turn (w : Vector3 ℝ) (angle : ℝ) (v : Vector3 ℝ) :
    (spin w angle).turn v = v.scale (Real.cos angle) + (w.cross v).scale (Real.sin angle) +
      w.scale (w.dot v * (1 - Real.cos angle)) := by
  rw [spin, ofColumns_turn]
  ext <;> simp [Vector3.dot_eq] <;> ring

/-- A rotation of directions about a unit axis is rigid. -/
theorem spin_rigid (hw : w.dot w = 1) (angle : ℝ) : (spin w angle).Rigid where
  bottom := ofColumns_r4 _ _ _ _
  dot a b := by
    rw [spin_turn, spin_turn, Vector3.dot_combination, hw]
    linear_combination (a.dot b - w.dot a * w.dot b) * Real.sin_sq_add_cos_sq angle
  cross a b := by
    have htrig := Real.sin_sq_add_cos_sq angle
    rw [spin_turn, spin_turn, spin_turn, Vector3.cross_combination, hw]
    congr 3
    · ring
    · ring
    · linear_combination -htrig

/-- A unit axis is its own direction. -/
theorem axisDirection_eq (hw : w.dot w = 1) : axisDirection w = w := by
  rw [axisDirection, Vector3.norm_eq_one_iff.mpr hw]
  simp

/-- A rotation about a line turns vectors as that of directions does. -/
theorem rotation_turn (hw : w.dot w = 1) (angle : ℝ) (o v : Vector3 ℝ) :
    (rotation w angle o).turn v = (spin w angle).turn v := by
  rw [rotation, axisDirection_eq hw, ofColumns_turn]
  ext <;> rfl

/-- The position of a rotation about a line, from a point on it. -/
theorem rotation_position (hw : w.dot w = 1) (angle : ℝ) (o : Vector3 ℝ) :
    (rotation w angle o).position = o - (spin w angle).turn o := by
  rw [rotation, axisDirection_eq hw]
  rfl

/-- A rotation about a unit axis is rigid. -/
theorem rotation_rigid (hw : w.dot w = 1) (angle : ℝ) (o : Vector3 ℝ) :
    (rotation w angle o).Rigid where
  bottom := ofColumns_r4 _ _ _ _
  dot a b := by rw [rotation_turn hw, rotation_turn hw, (spin_rigid hw angle).dot]
  cross a b := by simp only [rotation_turn hw, (spin_rigid hw angle).cross]

/-- A point is turned about a point of the axis. -/
theorem rotation_apply (hw : w.dot w = 1) (angle : ℝ) (o p : Vector3 ℝ) :
    (rotation w angle o).apply p = o + (spin w angle).turn (p - o) := by
  rw [apply, rotation_turn hw, rotation_position hw, turn_sub]
  ext <;> simp <;> ring

/-- A point turns about the line as a direction does. -/
theorem rotation_apply_sub (hw : w.dot w = 1) (angle : ℝ) (o p : Vector3 ℝ) :
    (rotation w angle o).apply p - o = (spin w angle).turn (p - o) := by
  rw [rotation_apply hw]
  ext <;> simp

/-- A rotation depends on its angle through the sine and the cosine. -/
theorem rotation_congr {θ φ : ℝ} (hcos : Real.cos θ = Real.cos φ) (hsin : Real.sin θ = Real.sin φ)
    (w o : Vector3 ℝ) : rotation w θ o = rotation w φ o := by
  simp only [rotation, spin, Scalar.cos_real, Scalar.sin_real, hcos, hsin]

/-- A turn by no angle turns nothing. -/
theorem spin_zero_turn (w v : Vector3 ℝ) : (spin w 0).turn v = v := by
  rw [spin_turn]
  ext <;> simp

/-- A rotation by no angle moves nothing. -/
theorem rotation_zero (hw : w.dot w = 1) (o : Vector3 ℝ) : rotation w 0 o = 1 := by
  refine ext_of_turn (ofColumns_r4 _ _ _ _) Rigid.one.bottom (fun v => ?_) ?_
  · rw [rotation_turn hw, spin_zero_turn]
    ext <;> simp [← one_eq, one]
  · rw [rotation_position hw, spin_zero_turn]
    ext <;> simp [← one_eq, one]

/-- The identity moves no point. -/
theorem one_apply (p : Vector3 ℝ) : (1 : Matrix4 ℝ).apply p = p := by
  ext <;> simp [← one_eq, one, apply]

/-- The axis of a rotation is kept. -/
theorem spin_turn_axis (hw : w.dot w = 1) (angle : ℝ) : (spin w angle).turn w = w := by
  rw [spin_turn, hw]
  ext <;> simp <;> ring

/-- A rotation keeps what a direction has along the axis. -/
theorem dot_spin_turn (hw : w.dot w = 1) (angle : ℝ) (v : Vector3 ℝ) :
    w.dot ((spin w angle).turn v) = w.dot v := by
  have h := (spin_rigid hw angle).dot w v
  rwa [spin_turn_axis hw] at h

/-- The points of the axis are kept. -/
theorem rotation_apply_of_mem_line (hw : w.dot w = 1) (angle : ℝ) {o p : Vector3 ℝ} {t : ℝ}
    (hp : p = o + w.scale t) : (rotation w angle o).apply p = p := by
  have hsub : p - o = w.scale t := by
    rw [hp]
    ext <;> simp
  rw [rotation_apply hw, hsub, turn_scale, spin_turn_axis hw, hp]

/-- A rotation keeps what a point has along the axis. -/
theorem dot_rotation_apply (hw : w.dot w = 1) (angle : ℝ) (o p : Vector3 ℝ) :
    w.dot ((rotation w angle o).apply p) = w.dot p := by
  have h := dot_spin_turn hw angle (p - o)
  rw [rotation_apply hw]
  simp only [Vector3.dot_eq, Vector3.add_x, Vector3.add_y, Vector3.add_z, Vector3.sub_x,
    Vector3.sub_y, Vector3.sub_z] at h ⊢
  linear_combination h

/-- A rotation keeps the distance to the points of the axis. -/
theorem norm_rotation_apply_sub (hw : w.dot w = 1) (angle : ℝ) (o p : Vector3 ℝ) :
    ((rotation w angle o).apply p - o).norm = (p - o).norm := by
  rw [rotation_apply_sub hw, Vector3.norm_eq_norm_iff, (spin_rigid hw angle).dot]

end Matrix4

end RobotProgram
