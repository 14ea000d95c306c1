import RobotProgram.Proofs.Rotations

/-!
# Orientation errors

Two orientations differ by a rotation about an axis, by at most a half turn (`exists_axis_angle`).
The orientation error is that axis times the sine of the angle (`orientationError_eq_scale`): it
bounds the angle only up to its supplement, and it vanishes for equal orientations and for those a
half turn apart (`orientationError_eq_zero_iff`).

The axis is found from the antisymmetric part of the rotation. Where that vanishes the rotation is
the identity or a half turn, and a half turn has its axis along every column of its sum with the
identity that is not zero.
-/

namespace RobotProgram

/-- Parallel vectors are multiples of each other. -/
theorem Vector3.scale_of_cross_eq_zero {u v : Vector3 ℝ} (h : u.cross v = ⟨0, 0, 0⟩) :
    v.scale (u.dot u) = u.scale (u.dot v) := by
  simp only [Vector3.ext_iff, cross_x, cross_y, cross_z] at h
  obtain ⟨hx, hy, hz⟩ := h
  ext <;> simp only [scale_x, scale_y, scale_z, dot_eq]
  · linear_combination u.z * hy - u.y * hz
  · linear_combination u.x * hz - u.z * hx
  · linear_combination u.y * hx - u.x * hy

/-- A vector is along another one if a multiple of it is. -/
theorem Vector3.eq_scale_div {u v : Vector3 ℝ} {c k : ℝ} (hk : k ≠ 0)
    (h : v.scale k = u.scale c) : v = u.scale (c / k) := by
  simp only [Vector3.ext_iff, scale_x, scale_y, scale_z] at h ⊢
  obtain ⟨hx, hy, hz⟩ := h
  refine ⟨?_, ?_, ?_⟩
  · rw [mul_div_assoc', eq_div_iff hk, hx]
  · rw [mul_div_assoc', eq_div_iff hk, hy]
  · rw [mul_div_assoc', eq_div_iff hk, hz]

/-- A multiple of a unit vector has the size of the factor as its length. -/
theorem Vector3.norm_scale_of_unit {w : Vector3 ℝ} (hw : w.dot w = 1) (k : ℝ) :
    (w.scale k).norm = |k| := by
  have hsquare : (w.scale k).dot (w.scale k) = k * k := by
    rw [dot_eq] at hw ⊢
    simp only [scale_x, scale_y, scale_z]
    linear_combination k * k * hw
  rw [norm, hsquare]
  exact Real.sqrt_mul_self_eq_abs k

namespace Matrix4

/-! ### Entries of a rigid motion -/

/-- The cosine of the angle of a rotation, which is known by its trace. -/
noncomputable def cosine (m : Matrix4 ℝ) : ℝ := (m.r1.a + m.r2.b + m.r3.c - 1) / 2

/-- The error of a motion from the world's own axes, by the entries of the matrix. -/
theorem orientationError_one (m : Matrix4 ℝ) :
    orientationError 1 m =
      ⟨(m.r3.b - m.r2.c) / 2, (m.r1.c - m.r3.a) / 2, (m.r2.a - m.r1.b) / 2⟩ := by
  ext <;> simp [orientationError, columnX, columnY, columnZ, ← one_eq, one, ofColumns] <;> ring

/-- The error of two orientations is that of the rotation from one to the other. -/
theorem orientationError_eq (current target : Matrix4 ℝ) :
    orientationError current target = orientationError 1 (target * current.inverse) := by
  have hturn (v : Vector3 ℝ) :
      (target * current.inverse).turn v = target.turn (current.turnBack.turn v) := by
    rw [mul_turn current.inverse_bottom, inverse_turn]
  have hx := hturn ⟨1, 0, 0⟩
  have hy := hturn ⟨0, 1, 0⟩
  have hz := hturn ⟨0, 0, 1⟩
  rw [turn_unitX] at hx
  rw [turn_unitY] at hy
  rw [turn_unitZ] at hz
  rw [orientationError, orientationError, hx, hy, hz]
  ext <;> simp [columnX, columnY, columnZ, ← one_eq, one, ofColumns, turnBack] <;> ring

namespace Rigid

variable {m : Matrix4 ℝ}

/-- The columns are perpendicular unit vectors. -/
theorem column_products (hm : m.Rigid) :
    (m.r1.a * m.r1.a + m.r2.a * m.r2.a + m.r3.a * m.r3.a = 1 ∧
      m.r1.b * m.r1.b + m.r2.b * m.r2.b + m.r3.b * m.r3.b = 1 ∧
      m.r1.c * m.r1.c + m.r2.c * m.r2.c + m.r3.c * m.r3.c = 1) ∧
    m.r1.a * m.r1.b + m.r2.a * m.r2.b + m.r3.a * m.r3.b = 0 ∧
      m.r1.a * m.r1.c + m.r2.a * m.r2.c + m.r3.a * m.r3.c = 0 ∧
      m.r1.b * m.r1.c + m.r2.b * m.r2.c + m.r3.b * m.r3.c = 0 := by
  have hdot (a b : Vector3 ℝ) := hm.dot a b
  simp only [Vector3.dot_eq, turn_x, turn_y, turn_z] at hdot
  refine ⟨⟨?_, ?_, ?_⟩, ?_, ?_, ?_⟩
  · simpa using hdot ⟨1, 0, 0⟩ ⟨1, 0, 0⟩
  · simpa using hdot ⟨0, 1, 0⟩ ⟨0, 1, 0⟩
  · simpa using hdot ⟨0, 0, 1⟩ ⟨0, 0, 1⟩
  · simpa using hdot ⟨1, 0, 0⟩ ⟨0, 1, 0⟩
  · simpa using hdot ⟨1, 0, 0⟩ ⟨0, 0, 1⟩
  · simpa using hdot ⟨0, 1, 0⟩ ⟨0, 0, 1⟩

/-- The rows are perpendicular unit vectors. -/
theorem row_products (hm : m.Rigid) :
    (m.r1.a * m.r1.a + m.r1.b * m.r1.b + m.r1.c * m.r1.c = 1 ∧
      m.r2.a * m.r2.a + m.r2.b * m.r2.b + m.r2.c * m.r2.c = 1 ∧
      m.r3.a * m.r3.a + m.r3.b * m.r3.b + m.r3.c * m.r3.c = 1) ∧
    m.r1.a * m.r2.a + m.r1.b * m.r2.b + m.r1.c * m.r2.c = 0 ∧
      m.r1.a * m.r3.a + m.r1.b * m.r3.b + m.r1.c * m.r3.c = 0 ∧
      m.r2.a * m.r3.a + m.r2.b * m.r3.b + m.r2.c * m.r3.c = 0 := by
  simpa [Matrix4.inverse, mul_r1, mul_r2, mul_r3, rowMul_eq, Matrix4.displacement, turnBack,
    ofColumns] using hm.inverse.column_products

/-- Each column is the vector product of the other two, so each entry is its cofactor. -/
theorem cofactors (hm : m.Rigid) :
    m.columnX = m.columnY.cross m.columnZ ∧ m.columnY = m.columnZ.cross m.columnX ∧
      m.columnZ = m.columnX.cross m.columnY := by
  have hx : (⟨0, 1, 0⟩ : Vector3 ℝ).cross ⟨0, 0, 1⟩ = ⟨1, 0, 0⟩ := by ext <;> simp
  have hy : (⟨0, 0, 1⟩ : Vector3 ℝ).cross ⟨1, 0, 0⟩ = ⟨0, 1, 0⟩ := by ext <;> simp
  have hz : (⟨1, 0, 0⟩ : Vector3 ℝ).cross ⟨0, 1, 0⟩ = ⟨0, 0, 1⟩ := by ext <;> simp
  refine ⟨?_, ?_, ?_⟩
  · rw [← turn_unitX, ← turn_unitY, ← turn_unitZ, ← hm.cross, hx]
  · rw [← turn_unitX, ← turn_unitY, ← turn_unitZ, ← hm.cross, hy]
  · rw [← turn_unitX, ← turn_unitY, ← turn_unitZ, ← hm.cross, hz]

/-- The error and the cosine of a rotation are on the unit sphere. -/
theorem dot_orientationError_one (hm : m.Rigid) :
    (orientationError 1 m).dot (orientationError 1 m) + m.cosine * m.cosine = 1 := by
  obtain ⟨⟨hxx, hyy, hzz⟩, -⟩ := hm.column_products
  obtain ⟨hx, hy, hz⟩ := hm.cofactors
  have hx := congrArg Vector3.x hx
  have hy := congrArg Vector3.y hy
  have hz := congrArg Vector3.z hz
  simp only [columnX, columnY, columnZ, Vector3.cross_x, Vector3.cross_y, Vector3.cross_z]
    at hx hy hz
  rw [orientationError_one, Vector3.dot_eq, cosine]
  linear_combination (hxx + hyy + hzz) / 4 - (hx + hy + hz) / 2

/-- What a rotation does, by its error and its cosine. -/
theorem turn_scale_one_add_cosine (hm : m.Rigid) (v : Vector3 ℝ) :
    (m.turn v).scale (1 + m.cosine) =
      v.scale ((1 + m.cosine) * m.cosine) +
        ((orientationError 1 m).cross v).scale (1 + m.cosine) +
        (orientationError 1 m).scale ((orientationError 1 m).dot v) := by
  obtain ⟨⟨cx, cy, cz⟩, cxy, cxz, cyz⟩ := hm.column_products
  obtain ⟨⟨rx, ry, rz⟩, rxy, rxz, ryz⟩ := hm.row_products
  obtain ⟨hx, hy, hz⟩ := hm.cofactors
  simp only [columnX, columnY, columnZ, Vector3.ext_iff, Vector3.cross_x, Vector3.cross_y,
    Vector3.cross_z] at hx hy hz
  obtain ⟨ha, hd, hg⟩ := hx
  obtain ⟨hb, he, hh⟩ := hy
  obtain ⟨hc, hf, hi⟩ := hz
  rw [orientationError_one]
  -- Each entry of the identity is a sum of products of rows and of columns, and of cofactors.
  ext
  · simp only [Vector3.dot_eq, turn_x, Vector3.add_x, Vector3.scale_x,
      Vector3.cross_x, cosine]
    linear_combination v.x / 4 * (2 * ha + cx - ry - rz) + v.y / 4 * (hb + hd + cxy + rxy) +
      v.z / 4 * (hc + hg + cxz + rxz)
  · simp only [Vector3.dot_eq, turn_y, Vector3.add_y, Vector3.scale_y,
      Vector3.cross_y, cosine]
    linear_combination v.y / 4 * (2 * he + cy - rx - rz) + v.x / 4 * (hb + hd + cxy + rxy) +
      v.z / 4 * (hf + hh + cyz + ryz)
  · simp only [Vector3.dot_eq, turn_z, Vector3.add_z, Vector3.scale_z,
      Vector3.cross_z, cosine]
    linear_combination v.z / 4 * (2 * hi + cz - rx - ry) + v.x / 4 * (hc + hg + cxz + rxz) +
      v.y / 4 * (hf + hh + cyz + ryz)

end Rigid

/-! ### Half turns -/

/-- A motion under a vector product, by its trace and its transpose. -/
theorem turn_cross_add_cross_turn (m : Matrix4 ℝ) (a b : Vector3 ℝ) :
    (m.turn a).cross b + a.cross (m.turn b) =
      (a.cross b).scale (2 * m.cosine + 1) - m.turnBack.turn (a.cross b) := by
  ext <;> simp [cosine, turnBack] <;> ring

/-- A rotation without an error is symmetric. -/
theorem turnBack_turn_of_orientationError {m : Matrix4 ℝ} (h : orientationError 1 m = ⟨0, 0, 0⟩)
    (v : Vector3 ℝ) : m.turnBack.turn v = m.turn v := by
  rw [orientationError_one, Vector3.mk.injEq] at h
  obtain ⟨hx, hy, hz⟩ := h
  have hbc : m.r3.b = m.r2.c := by linarith
  have hca : m.r1.c = m.r3.a := by linarith
  have hab : m.r2.a = m.r1.b := by linarith
  ext <;> simp [turnBack, hbc, hca, hab]

namespace Rigid

variable {m : Matrix4 ℝ}

/-- A rotation by a half turn adds to the identity along one axis only: the sums of two directions
with their images are parallel, and each sum is along the axis. -/
theorem half_turn (hm : m.Rigid) (hcos : m.cosine = -1) (e v : Vector3 ℝ) :
    (m.turn v + v).scale ((m.turn e + e).dot (m.turn e + e)) =
      (m.turn e + e).scale (2 * (m.turn e + e).dot v) := by
  have herror := hm.dot_orientationError_one
  rw [hcos] at herror
  have hsymm := turnBack_turn_of_orientationError (Vector3.eq_zero_of_dot_self (by linarith))
  have hcross : (m.turn e + e).cross (m.turn v + v) = ⟨0, 0, 0⟩ := by
    have hsum := turn_cross_add_cross_turn m e v
    rw [hcos, hsymm, hm.cross] at hsum
    have hexpand : (m.turn e + e).cross (m.turn v + v) = (m.turn e).cross (m.turn v) +
        ((m.turn e).cross v + e.cross (m.turn v)) + e.cross v := by
      ext <;> simp <;> ring
    rw [hexpand, hsum]
    ext <;> simp <;> ring
  have hdot : (m.turn e + e).dot (m.turn v + v) = 2 * (m.turn e + e).dot v := by
    have hback := m.dot_turnBack e v
    rw [hsymm] at hback
    have hkept := hm.dot e v
    simp only [Vector3.dot_eq, Vector3.add_x, Vector3.add_y, Vector3.add_z] at hback hkept ⊢
    linear_combination hkept - hback
  rw [Vector3.scale_of_cross_eq_zero hcross, hdot]

end Rigid

/-! ### Axis and angle -/

/-- The rotation about a direction that is scaled to unit length. -/
theorem spin_divide_norm_turn (u : Vector3 ℝ) (θ : ℝ) (v : Vector3 ℝ) :
    (spin (u.divide u.norm) θ).turn v = v.scale (Real.cos θ) +
      (u.cross v).scale (Real.sin θ / u.norm) +
      u.scale (u.dot v * (1 - Real.cos θ) / (u.norm * u.norm)) := by
  have hdivide : u.divide u.norm = u.scale u.norm⁻¹ := by
    ext <;> exact div_eq_mul_inv _ _
  rw [spin_turn, hdivide]
  ext <;> simp [Vector3.dot_eq] <;> ring

namespace Rigid

variable {m : Matrix4 ℝ}

/-- A half turn is one about some axis. -/
theorem exists_axis_of_half_turn (hm : m.Rigid) (hcos : m.cosine = -1) :
    ∃ axis : Vector3 ℝ, axis.dot axis = 1 ∧ ∀ v, m.turn v = (spin axis Real.pi).turn v := by
  -- If all these sums were zero, the trace would be minus three and not minus one.
  obtain ⟨e, he⟩ : ∃ e, (m.turn e + e).norm ≠ 0 := by
    by_contra! hall
    have hzero (e : Vector3 ℝ) : m.turn e + e = ⟨0, 0, 0⟩ := Vector3.eq_zero_of_norm (hall e)
    have hx := congrArg Vector3.x (hzero ⟨1, 0, 0⟩)
    have hy := congrArg Vector3.y (hzero ⟨0, 1, 0⟩)
    have hz := congrArg Vector3.z (hzero ⟨0, 0, 1⟩)
    rw [turn_unitX] at hx
    rw [turn_unitY] at hy
    rw [turn_unitZ] at hz
    simp only [columnX, columnY, columnZ, Vector3.add_x, Vector3.add_y, Vector3.add_z] at hx hy hz
    rw [cosine] at hcos
    linarith
  have hhalf := hm.half_turn hcos e
  have hsquare := (m.turn e + e).norm_mul_self
  generalize m.turn e + e = u at he hhalf hsquare
  refine ⟨u.divide u.norm, Vector3.dot_self_divide_norm he, fun v => ?_⟩
  have hv := Vector3.eq_scale_div (mul_ne_zero he he) (hsquare ▸ hhalf v)
  rw [spin_divide_norm_turn, Real.cos_pi, Real.sin_pi]
  simp only [Vector3.ext_iff, Vector3.scale_x, Vector3.scale_y, Vector3.scale_z, Vector3.add_x,
    Vector3.add_y, Vector3.add_z] at hv ⊢
  obtain ⟨hx, hy, hz⟩ := hv
  refine ⟨?_, ?_, ?_⟩
  · linear_combination hx
  · linear_combination hy
  · linear_combination hz

/-- A rotation with an error is one about its error. -/
theorem exists_axis_of_error (hm : m.Rigid) (herror : (orientationError 1 m).norm ≠ 0) :
    ∃ θ, 0 ≤ θ ∧ θ ≤ Real.pi ∧ ∀ v, m.turn v =
      (spin ((orientationError 1 m).divide (orientationError 1 m).norm) θ).turn v := by
  have hsphere := hm.dot_orientationError_one
  have hturn := hm.turn_scale_one_add_cosine
  rw [← Vector3.norm_mul_self] at hsphere
  have hnorm := (orientationError 1 m).norm_nonneg
  generalize orientationError 1 m = u at *
  have hcos : Real.cos (Real.arccos m.cosine) = m.cosine :=
    Real.cos_arccos (by nlinarith) (by nlinarith)
  have hsin : Real.sin (Real.arccos m.cosine) = u.norm := by
    rw [Real.sin_arccos, ← Real.sqrt_mul_self hnorm]
    congr 1
    linarith
  refine ⟨Real.arccos m.cosine, Real.arccos_nonneg _, Real.arccos_le_pi _, fun v => ?_⟩
  have hpos : 1 + m.cosine ≠ 0 := by
    intro h
    exact herror (by nlinarith)
  have hv := hturn v
  -- The square of the sine is the product of one plus and one minus the cosine.
  have hfactor : (1 - m.cosine) / (u.norm * u.norm) = 1 / (1 + m.cosine) := by
    field_simp
    linear_combination -hsphere
  rw [spin_divide_norm_turn, hcos, hsin, div_self herror, mul_div_assoc, hfactor]
  simp only [Vector3.ext_iff, Vector3.scale_x, Vector3.scale_y, Vector3.scale_z, Vector3.add_x,
    Vector3.add_y, Vector3.add_z] at hv ⊢
  obtain ⟨hx, hy, hz⟩ := hv
  refine ⟨?_, ?_, ?_⟩
  · field_simp
    linear_combination hx
  · field_simp
    linear_combination hy
  · field_simp
    linear_combination hz

/-- Every rotation is one about an axis, by at most a half turn. -/
theorem exists_axis_angle (hm : m.Rigid) :
    ∃ axis : Vector3 ℝ, ∃ θ, axis.dot axis = 1 ∧ 0 ≤ θ ∧ θ ≤ Real.pi ∧
      ∀ v, m.turn v = (spin axis θ).turn v := by
  by_cases herror : (orientationError 1 m).norm = 0
  · have hsphere := hm.dot_orientationError_one
    rw [← Vector3.norm_mul_self, herror, mul_zero, zero_add] at hsphere
    obtain hcos | hcos := mul_self_eq_one_iff.mp hsphere
    · refine ⟨⟨1, 0, 0⟩, 0, by simp [Vector3.dot_eq], le_rfl, Real.pi_pos.le, fun v => ?_⟩
      have hzero : orientationError 1 m = ⟨0, 0, 0⟩ :=
        Vector3.eq_zero_of_dot_self (by rw [← Vector3.norm_mul_self, herror, mul_zero])
      have hv := hm.turn_scale_one_add_cosine v
      rw [hcos, hzero] at hv
      rw [spin_zero_turn]
      simp only [Vector3.ext_iff, Vector3.scale_x, Vector3.scale_y, Vector3.scale_z,
        Vector3.add_x, Vector3.add_y, Vector3.add_z, Vector3.cross_x, Vector3.cross_y,
        Vector3.cross_z] at hv
      obtain ⟨hx, hy, hz⟩ := hv
      ext <;> linarith
    · obtain ⟨axis, haxis, hturn⟩ := hm.exists_axis_of_half_turn hcos
      exact ⟨axis, Real.pi, haxis, Real.pi_pos.le, le_rfl, hturn⟩
  · obtain ⟨θ, hnonneg, hle, hturn⟩ := hm.exists_axis_of_error herror
    exact ⟨_, θ, Vector3.dot_self_divide_norm herror, hnonneg, hle, hturn⟩

end Rigid

/-! ### The error of two orientations -/

variable {current target : Matrix4 ℝ}

/-- The error of an orientation that is turned is the axis times the sine of the angle. -/
theorem orientationError_eq_scale (hcurrent : current.Rigid) {axis : Vector3 ℝ} {θ : ℝ}
    (h : ∀ v, target.turn v = (spin axis θ).turn (current.turn v)) :
    orientationError current target = axis.scale (Real.sin θ) := by
  have hturn (v : Vector3 ℝ) : (target * current.inverse).turn v = (spin axis θ).turn v := by
    rw [mul_turn current.inverse_bottom, h, inverse_turn, hcurrent.turn_turnBack]
  rw [orientationError_eq, orientationError, ← turn_unitX (_ * _), ← turn_unitY (_ * _),
    ← turn_unitZ (_ * _)]
  simp only [hturn, spin_turn]
  ext <;> simp [columnX, columnY, columnZ, ← one_eq, one, ofColumns, Vector3.dot_eq] <;> ring

/-- Two orientations differ by a rotation of at most a half turn, and their error is its axis times
the sine of its angle. -/
theorem exists_rotation_between (hcurrent : current.Rigid) (htarget : target.Rigid) :
    ∃ axis : Vector3 ℝ, ∃ θ, axis.dot axis = 1 ∧ 0 ≤ θ ∧ θ ≤ Real.pi ∧
      (∀ v, target.turn v = (spin axis θ).turn (current.turn v)) ∧
      orientationError current target = axis.scale (Real.sin θ) := by
  obtain ⟨axis, θ, haxis, hnonneg, hle, hturn⟩ := (htarget.mul hcurrent.inverse).exists_axis_angle
  have hbetween (v : Vector3 ℝ) : target.turn v = (spin axis θ).turn (current.turn v) := by
    rw [← hturn, mul_turn current.inverse_bottom, inverse_turn, hcurrent.turnBack_turn]
  exact ⟨axis, θ, haxis, hnonneg, hle, hbetween, orientationError_eq_scale hcurrent hbetween⟩

/-- The error vanishes for equal orientations, and for orientations that are a half turn apart. -/
theorem orientationError_eq_zero_iff (hcurrent : current.Rigid) (htarget : target.Rigid) :
    orientationError current target = ⟨0, 0, 0⟩ ↔
      (∀ v, target.turn v = current.turn v) ∨
      ∃ axis : Vector3 ℝ, axis.dot axis = 1 ∧
        ∀ v, target.turn v = (spin axis Real.pi).turn (current.turn v) := by
  constructor
  · intro h
    obtain ⟨axis, θ, haxis, hnonneg, hle, hturn, herror⟩ :=
      exists_rotation_between hcurrent htarget
    have hsin : Real.sin θ = 0 := by
      have hnorm := Vector3.norm_scale_of_unit haxis (Real.sin θ)
      rw [← herror, h] at hnorm
      rw [← abs_eq_zero, ← hnorm]
      simp [Vector3.norm, Vector3.dot_eq]
    obtain rfl | hpos := hnonneg.eq_or_lt
    · simp only [spin_zero_turn] at hturn
      exact .inl hturn
    · obtain rfl | hlt := hle.eq_or_lt
      · exact .inr ⟨axis, haxis, hturn⟩
      · exact absurd hsin (Real.sin_pos_of_pos_of_lt_pi hpos hlt).ne'
  · rintro (h | ⟨axis, -, h⟩)
    · have hzero (v : Vector3 ℝ) : target.turn v = (spin ⟨0, 0, 1⟩ 0).turn (current.turn v) := by
        rw [spin_zero_turn, h]
      rw [orientationError_eq_scale hcurrent hzero]
      ext <;> simp
    · rw [orientationError_eq_scale hcurrent h]
      ext <;> simp

end Matrix4

/-- A bound on the sine bounds the angle or its supplement. -/
theorem sin_le_iff_le_arcsin_or {θ : ℝ} (hnonneg : 0 ≤ θ) (hle : θ ≤ Real.pi) (bound : ℝ) :
    Real.sin θ ≤ bound ↔ θ ≤ Real.arcsin bound ∨ Real.pi - Real.arcsin bound ≤ θ := by
  have hpi := Real.pi_pos
  have harcsin := Real.arcsin_le_pi_div_two bound
  obtain hacute | hobtuse := le_or_gt θ (Real.pi / 2)
  · rw [← Real.le_arcsin_iff_sin_le' ⟨by linarith, hacute⟩]
    constructor
    · exact .inl
    · rintro (h | h)
      · exact h
      · linarith
  · rw [← Real.sin_pi_sub, ← Real.le_arcsin_iff_sin_le' ⟨by linarith, by linarith⟩]
    constructor
    · intro h
      exact .inr (by linarith)
    · rintro (h | h)
      · linarith
      · linarith

end RobotProgram
