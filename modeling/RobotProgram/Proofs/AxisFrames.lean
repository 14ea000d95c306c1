import RobotProgram.Proofs.RigidMotions

/-!
# Frames along an axis

`Frame.ofAxis` puts a frame at a point with its third axis along a direction. Its first axis is the
direction of the vector product of a reference with the third: the third axis of the world, or the
first when the direction is nearly vertical. The reference is never parallel to the direction
(`dot_reference_sq_lt`), so the product has a length, and the two axes are perpendicular unit
vectors, which the constructor of frames keeps (`Frame.ofAxes_completed`). So every
direction with a length is the third axis of its frame (`Frame.ofAxis_along`).

Only the direction of an axis counts, not its length (`Frame.ofAxis_scale`).
-/

namespace RobotProgram

namespace Vector3

/-- A direction of unit length does not depend on the length that it is given with. -/
theorem unit_scale {k : ℝ} (hk : 0 < k) (a : Vector3 ℝ) : (a.scale k).unit = a.unit := by
  have hsquare : (a.scale k).dot (a.scale k) = a.dot a * (k * k) := by
    simp only [dot_eq, scale_x, scale_y, scale_z]
    ring
  have hnorm : (a.scale k).norm = a.norm * k := by
    calc (a.scale k).norm = √(a.dot a * (k * k)) := congrArg Real.sqrt hsquare
      _ = √(a.dot a) * √(k * k) := Real.sqrt_mul a.dot_self_nonneg _
      _ = a.norm * k := by rw [Real.sqrt_mul_self hk.le]; rfl
  have hdivide : (a.scale k).divide (a.norm * k) = a.divide a.norm := by
    ext
    · exact mul_div_mul_right a.x a.norm hk.ne'
    · exact mul_div_mul_right a.y a.norm hk.ne'
    · exact mul_div_mul_right a.z a.norm hk.ne'
  rw [unit, unit, hnorm, hdivide]
  simp [hk.ne']

/-- Two perpendicular axes, completed by their product, give the second axis back. -/
theorem cross_cross_of_perpendicular {x z : Vector3 ℝ} (hx : x.dot x = 1) (hxz : x.dot z = 0) :
    x.cross (z.cross x) = z := by
  simp only [dot_eq] at hx hxz
  ext
  · simp only [cross_x, cross_y, cross_z]
    linear_combination z.x * hx - x.x * hxz
  · simp only [cross_x, cross_y, cross_z]
    linear_combination z.y * hx - x.y * hxz
  · simp only [cross_x, cross_y, cross_z]
    linear_combination z.z * hx - x.z * hxz

/-- A vector product that is scaled is perpendicular to both factors. -/
theorem perpendicular_divide_cross (a b : Vector3 ℝ) (k : ℝ) :
    ((a.cross b).divide k).dot a = 0 ∧ ((a.cross b).divide k).dot b = 0 := by
  constructor
  · rw [dot_comm, dot_divide, dot_cross_left, zero_div]
  · rw [dot_comm, dot_divide, dot_cross_right, zero_div]

end Vector3

namespace Frame

open RobotProgram.Vector3

/-- The direction that the first axis is perpendicular to, besides the third axis `z`. -/
noncomputable def reference (z : Vector3 ℝ) : Vector3 ℝ :=
  if |z.z| < 9 / 10 then ⟨0, 0, 1⟩ else ⟨1, 0, 0⟩

/-- The reference is a unit vector. -/
theorem dot_self_reference (z : Vector3 ℝ) : (reference z).dot (reference z) = 1 := by
  unfold reference
  split
  · simp [dot_eq]
  · simp [dot_eq]

/-- The reference is not parallel to the axis: less than nine tenths of a unit axis are along the
third axis of the world, or else less than half of it is along the first. -/
theorem dot_reference_sq_lt {z : Vector3 ℝ} (hz : z.dot z = 1) :
    (reference z).dot z * (reference z).dot z < 1 := by
  unfold reference
  rw [dot_eq] at hz
  split
  · next h =>
    have hsquare : z.z * z.z < 9 / 10 * (9 / 10) := by
      rw [← abs_mul_abs_self]
      exact mul_self_lt_mul_self (abs_nonneg _) h
    simp only [dot_eq]
    linarith
  · next h =>
    have hsquare : 9 / 10 * (9 / 10) ≤ z.z * z.z := by
      rw [← abs_mul_abs_self z.z]
      exact mul_self_le_mul_self (by norm_num) (not_lt.mp h)
    simp only [dot_eq]
    nlinarith [mul_self_nonneg z.y]

/-- The reference is not parallel to a unit vector. -/
theorem cross_reference_ne_zero {z : Vector3 ℝ} (hz : z.dot z = 1) :
    (reference z).cross z ≠ ⟨0, 0, 0⟩ := by
  intro h
  -- The product is as long as the sine of the angle, whose cosine is not one or minus one.
  have hlength := dot_self_cross (dot_self_reference z) hz
  have hlt := dot_reference_sq_lt hz
  rw [h, dot_eq] at hlength
  linarith

/-- A frame along an axis is made of the direction and of its product with the reference. -/
theorem ofAxis_eq (p d : Vector3 ℝ) : ofAxis p d =
    (d.unit >>= fun z => ((reference z).cross z).unit >>= fun x => ofAxes p x (z.cross x)) := by
  unfold ofAxis reference
  simp

/-- What the constructor is given has perpendicular unit axes, and it keeps them. -/
theorem ofAxes_completed (p : Vector3 ℝ) {x z : Vector3 ℝ} (hx : x.dot x = 1) (hz : z.dot z = 1)
    (hxz : x.dot z = 0) : ∃ f, ofAxes p x (z.cross x) = .ok f ∧ f.Orthonormal ∧ f.point = p ∧
      f.xaxis = x ∧ f.zaxis = z := by
  have hyy : (z.cross x).dot (z.cross x) = 1 := by
    rw [dot_self_cross hz hx, dot_comm, hxz]
    ring
  have hf : (⟨p, x, z.cross x⟩ : Frame ℝ).Orthonormal := ⟨hx, hyy, dot_cross_right z x⟩
  exact ⟨_, ofAxes_of_orthonormal hf, hf, rfl, rfl, cross_cross_of_perpendicular hx hxz⟩

/-- A frame along an axis depends only on the direction, not on its length. -/
theorem ofAxis_scale {k : ℝ} (hk : 0 < k) (p d : Vector3 ℝ) :
    ofAxis p (d.scale k) = ofAxis p d := by
  rw [ofAxis_eq, ofAxis_eq, unit_scale hk]

/-- Every direction but zero has a frame, at the point and along the direction. Its first axis is
perpendicular to the third axis of the world, or to the first when at least nine tenths of the
direction are vertical. A direction of another length gives the same frame. -/
theorem ofAxis_along (p : Vector3 ℝ) {d : Vector3 ℝ} (hd : d ≠ ⟨0, 0, 0⟩) :
    ∃ f, ofAxis p d = .ok f ∧ f.Orthonormal ∧ f.point = p ∧ f.zaxis = d.divide d.norm ∧
      (|(d.divide d.norm).z| < 9 / 10 → f.xaxis.dot .unitZ = 0) ∧
      (9 / 10 ≤ |(d.divide d.norm).z| → f.xaxis.dot .unitX = 0) ∧
      ∀ k, 0 < k → ofAxis p (d.scale k) = .ok f := by
  have hunit := unit_of_ne_zero hd
  have hz := dot_self_of_unit hunit
  generalize d.divide d.norm = z at hunit hz ⊢
  -- From here on the direction has unit length, and the first axis is made from it alone.
  have hfirst := unit_of_ne_zero (cross_reference_ne_zero hz)
  have hx := dot_self_of_unit hfirst
  obtain ⟨hreference, hxz⟩ :=
    perpendicular_divide_cross (reference z) z ((reference z).cross z).norm
  generalize ((reference z).cross z).divide ((reference z).cross z).norm = x at *
  obtain ⟨f, hf, horthonormal, hpoint, hxaxis, hzaxis⟩ := ofAxes_completed p hx hz hxz
  have hmade : ofAxis p d = .ok f := by
    rw [ofAxis_eq, hunit, Outcome.ok_bind, hfirst, Outcome.ok_bind, hf]
  refine ⟨f, hmade, horthonormal, hpoint, hzaxis, fun hflat => ?_, fun hsteep => ?_,
    fun k hk => ?_⟩
  · rw [reference, if_pos hflat] at hreference
    rw [hxaxis, unitZ_eq, hreference]
  · rw [reference, if_neg (not_lt.mpr hsteep)] at hreference
    rw [hxaxis, unitX_eq, hreference]
  · rw [ofAxis_scale hk, hmade]

/-- A direction of length thirteen, twelve thirteenths of it vertical. -/
theorem ofAxis_along_steep :
    (⟨0, 5, 12⟩ : Vector3 ℝ) ≠ ⟨0, 0, 0⟩ ∧ (9 / 10 : ℝ) ≤ |12 / 13| ∧ (0 : ℝ) < 2 ∧
    ∃ f, ofAxis ⟨10, 20, 30⟩ ⟨0, 5, 12⟩ = .ok f ∧ f.Orthonormal ∧ f.point = ⟨10, 20, 30⟩ ∧
      f.zaxis = ⟨0, 5 / 13, 12 / 13⟩ ∧ f.xaxis.dot .unitX = 0 ∧
      ofAxis ⟨10, 20, 30⟩ ⟨0, 10, 24⟩ = .ok f := by
  have hne : (⟨0, 5, 12⟩ : Vector3 ℝ) ≠ ⟨0, 0, 0⟩ := by simp
  have hnorm : (⟨0, 5, 12⟩ : Vector3 ℝ).norm = 13 := by
    have hsquare : (⟨0, 5, 12⟩ : Vector3 ℝ).dot ⟨0, 5, 12⟩ = 13 * 13 := by
      rw [dot_eq]
      norm_num
    rw [Vector3.norm, hsquare]
    exact Real.sqrt_mul_self (by norm_num)
  have hdirection : (⟨0, 5, 12⟩ : Vector3 ℝ).divide 13 = ⟨0, 5 / 13, 12 / 13⟩ := by
    ext
    · exact zero_div 13
    · rfl
    · rfl
  have hdouble : (⟨0, 5, 12⟩ : Vector3 ℝ).scale 2 = ⟨0, 10, 24⟩ := by
    ext <;> norm_num
  have hsteep : (9 / 10 : ℝ) ≤ |12 / 13| := by norm_num
  obtain ⟨f, hf, horthonormal, hpoint, hz, -, hx, hscale⟩ := ofAxis_along ⟨10, 20, 30⟩ hne
  rw [hnorm, hdirection] at hz hx
  exact ⟨hne, hsteep, two_pos, f, hf, horthonormal, hpoint, hz, hx hsteep,
    hdouble ▸ hscale 2 two_pos⟩

end Frame

end RobotProgram
