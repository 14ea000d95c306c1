import Mathlib.Algebra.Quaternion
import RobotProgram.Proofs.GuardedScalar
import RobotProgram.Proofs.OrientationError

/-!
# Quaternions of frames

A unit quaternion represents a rotation when it turns every vector as the rotation does, by the
product with the quaternion before and its conjugate behind (`Represents`). Every rotation has one,
with half the angle about the axis (`exists_represents`), and the entries of the rotation are then
the products of its components (`Represents.products`).

The quaternion of a rotation matrix is read off these products: a branch takes the root of four
squares of one component, and divides the products with that component by it. The branches are
chosen so that this component is not zero, and the result is the representing quaternion up to its
sign (`quaternionOf_eq`), which the first component decides. For no matrix at all does a branch
divide by zero (`quaternionOf_guarded`).
-/

namespace RobotProgram

/-! ### Quaternions that represent rotations -/

/-- A vector as a quaternion without a real part. -/
def Vector3.imaginary (v : Vector3 ℝ) : Quaternion ℝ := ⟨0, v.x, v.y, v.z⟩

/-- A quaternion among those with Hamilton's product. -/
def hamilton (q : Frame.Quaternion ℝ) : Quaternion ℝ := ⟨q.w, q.x, q.y, q.z⟩

section Components

variable (v : Vector3 ℝ) (q : Frame.Quaternion ℝ)

/-- The imaginary quaternion of a vector has no real part. -/
@[simp] theorem Vector3.imaginary_re : v.imaginary.re = 0 := rfl

/-- Its first imaginary part is the first coordinate. -/
@[simp] theorem Vector3.imaginary_imI : v.imaginary.imI = v.x := rfl

/-- Its second imaginary part is the second coordinate. -/
@[simp] theorem Vector3.imaginary_imJ : v.imaginary.imJ = v.y := rfl

/-- Its third imaginary part is the third coordinate. -/
@[simp] theorem Vector3.imaginary_imK : v.imaginary.imK = v.z := rfl

/-- The real part of a quaternion of the library. -/
@[simp] theorem hamilton_re : (hamilton q).re = q.w := rfl

/-- The first imaginary part of a quaternion of the library. -/
@[simp] theorem hamilton_imI : (hamilton q).imI = q.x := rfl

/-- The second imaginary part of a quaternion of the library. -/
@[simp] theorem hamilton_imJ : (hamilton q).imJ = q.y := rfl

/-- The third imaginary part of a quaternion of the library. -/
@[simp] theorem hamilton_imK : (hamilton q).imK = q.z := rfl

end Components

/-- A vector is known by its imaginary quaternion. -/
theorem Vector3.imaginary_injective : Function.Injective imaginary := by
  intro a b h
  ext
  · exact congrArg (·.imI) h
  · exact congrArg (·.imJ) h
  · exact congrArg (·.imK) h

namespace Frame.Quaternion

variable {q : Frame.Quaternion ℝ} {m : Matrix4 ℝ}

/-- The axis of the rotation, times the sine of half its angle. -/
def axis (q : Frame.Quaternion ℝ) : Vector3 ℝ := ⟨q.x, q.y, q.z⟩

/-- A quaternion with every component multiplied. -/
noncomputable def scale (k : ℝ) (q : Frame.Quaternion ℝ) : Frame.Quaternion ℝ :=
  ⟨k * q.w, k * q.x, k * q.y, k * q.z⟩

/-- Once a quaternion is the quaternion. -/
theorem scale_one (q : Frame.Quaternion ℝ) : q.scale 1 = q := by
  ext <;> exact one_mul _

/-- A quaternion times minus one is its opposite. -/
theorem scale_neg_one (q : Frame.Quaternion ℝ) : q.scale (-1) = q.opposite := by
  ext <;> exact neg_one_mul _

/-- The rotation of a vector by a quaternion, in the words of vectors. -/
theorem conjugate_eq (q : Frame.Quaternion ℝ) (v : Vector3 ℝ) :
    hamilton q * v.imaginary * star (hamilton q) =
      (v.scale (q.w * q.w - q.axis.dot q.axis) + (q.axis.cross v).scale (2 * q.w) +
        q.axis.scale (2 * q.axis.dot v)).imaginary := by
  ext
  · simp [axis]
    ring
  · simp [axis, Vector3.dot_eq]
    ring
  · simp [axis, Vector3.dot_eq]
    ring
  · simp [axis, Vector3.dot_eq]
    ring

/-- A unit quaternion that rotates every vector as a motion turns it. -/
structure Represents (q : Frame.Quaternion ℝ) (m : Matrix4 ℝ) : Prop where
  unit : q.w * q.w + q.x * q.x + q.y * q.y + q.z * q.z = 1
  turn : ∀ v : Vector3 ℝ, hamilton q * v.imaginary * star (hamilton q) = (m.turn v).imaginary

/-- Opposite quaternions rotate alike. -/
theorem Represents.opposite (h : q.Represents m) : q.opposite.Represents m where
  unit := by
    have hunit := h.unit
    simp only [Quaternion.opposite, neg_mul_neg]
    exact hunit
  turn v := by
    -- Every term of the rotated vector is of second degree in the quaternion.
    rw [← h.turn, conjugate_eq, conjugate_eq]
    congr 1
    ext
    · simp [Quaternion.opposite, axis, Vector3.dot_eq]
      ring
    · simp [Quaternion.opposite, axis, Vector3.dot_eq]
      ring
    · simp [Quaternion.opposite, axis, Vector3.dot_eq]
      ring

/-- A rotation about an axis is represented by half its angle. -/
theorem exists_represents (hm : m.Rigid) : ∃ q : Frame.Quaternion ℝ, q.Represents m := by
  obtain ⟨w, θ, hw, -, -, hturn⟩ := hm.exists_axis_angle
  have hcos : Real.cos θ =
      Real.cos (θ / 2) * Real.cos (θ / 2) - Real.sin (θ / 2) * Real.sin (θ / 2) := by
    rw [← Real.cos_add, add_halves]
  have hsin : Real.sin θ = 2 * Real.sin (θ / 2) * Real.cos (θ / 2) := by
    rw [← Real.sin_two_mul, mul_div_cancel₀ θ two_ne_zero]
  have hone := Real.sin_sq_add_cos_sq (θ / 2)
  -- What is left is algebra with the sine and cosine of half the angle.
  generalize Real.cos (θ / 2) = c at hcos hsin hone
  generalize Real.sin (θ / 2) = s at hcos hsin hone
  refine ⟨⟨c, w.x * s, w.y * s, w.z * s⟩, ?_, fun v => ?_⟩
  · rw [Vector3.dot_eq] at hw
    linear_combination s ^ 2 * hw + hone
  · have haxis : (⟨c, w.x * s, w.y * s, w.z * s⟩ : Frame.Quaternion ℝ).axis = w.scale s := rfl
    rw [conjugate_eq, hturn, Matrix4.spin_turn, hcos, hsin, haxis]
    congr 1
    rw [Vector3.dot_eq] at hw
    ext
    · simp [Vector3.dot_eq]
      linear_combination -v.x * s ^ 2 * hw + w.x * (w.x * v.x + w.y * v.y + w.z * v.z) * hone
    · simp [Vector3.dot_eq]
      linear_combination -v.y * s ^ 2 * hw + w.y * (w.x * v.x + w.y * v.y + w.z * v.z) * hone
    · simp [Vector3.dot_eq]
      linear_combination -v.z * s ^ 2 * hw + w.z * (w.x * v.x + w.y * v.y + w.z * v.z) * hone

/-- The entries of a matrix give four times the products of the components. -/
structure Products (q : Frame.Quaternion ℝ) (m : Matrix4 ℝ) : Prop where
  ww : m.r1.a + m.r2.b + m.r3.c + 1 = 4 * (q.w * q.w)
  xx : 1 + m.r1.a - m.r2.b - m.r3.c = 4 * (q.x * q.x)
  yy : 1 + m.r2.b - m.r1.a - m.r3.c = 4 * (q.y * q.y)
  zz : 1 + m.r3.c - m.r1.a - m.r2.b = 4 * (q.z * q.z)
  wx : m.r3.b - m.r2.c = 4 * (q.w * q.x)
  wy : m.r1.c - m.r3.a = 4 * (q.w * q.y)
  wz : m.r2.a - m.r1.b = 4 * (q.w * q.z)
  xy : m.r1.b + m.r2.a = 4 * (q.x * q.y)
  xz : m.r1.c + m.r3.a = 4 * (q.x * q.z)
  yz : m.r2.c + m.r3.b = 4 * (q.y * q.z)

/-- The entries of a matrix that a quaternion represents give the products of its components. -/
theorem Represents.products (h : q.Represents m) : q.Products m := by
  obtain ⟨hunit, hturn⟩ := h
  have himage (v : Vector3 ℝ) :=
    Vector3.imaginary_injective ((conjugate_eq q v).symm.trans (hturn v))
  -- The columns of the matrix are what becomes of the axes of the world.
  have hx := himage ⟨1, 0, 0⟩
  have hy := himage ⟨0, 1, 0⟩
  have hz := himage ⟨0, 0, 1⟩
  rw [Matrix4.turn_unitX] at hx
  rw [Matrix4.turn_unitY] at hy
  rw [Matrix4.turn_unitZ] at hz
  simp [Vector3.ext_iff, Matrix4.columnX, axis, Vector3.dot_eq] at hx
  simp [Vector3.ext_iff, Matrix4.columnY, axis, Vector3.dot_eq] at hy
  simp [Vector3.ext_iff, Matrix4.columnZ, axis, Vector3.dot_eq] at hz
  obtain ⟨ha, hd, hg⟩ := hx
  obtain ⟨hb, he, hh⟩ := hy
  obtain ⟨hc, hf, hi⟩ := hz
  constructor
  all_goals linarith

/-! ### The branches of the extraction -/

/-- A component up to its sign from its square, and the others from their products with it. -/
theorem exists_sign {p radicand : ℝ} (h : radicand = 4 * (p * p)) (hpos : 0 < radicand) :
    ∃ σ : ℝ, (σ = 1 ∨ σ = -1) ∧ √radicand = 2 * (σ * p) ∧
      ∀ r, 4 * (p * r) / (2 * √radicand) = σ * r := by
  have hroot : √radicand = 2 * |p| := by
    rw [h, show 4 * (p * p) = 2 * p * (2 * p) by ring, Real.sqrt_mul_self_eq_abs, abs_mul, abs_two]
  have hp : p ≠ 0 := by
    rintro rfl
    linarith
  obtain hneg | hpos := hp.lt_or_gt
  · refine ⟨-1, .inr rfl, ?_, fun r => ?_⟩
    · rw [hroot, abs_of_neg hneg, neg_one_mul]
    · rw [hroot, abs_of_neg hneg]
      field_simp
      ring
  · refine ⟨1, .inl rfl, ?_, fun r => ?_⟩
    · rw [hroot, abs_of_pos hpos, one_mul]
    · rw [hroot, abs_of_pos hpos]
      field_simp
      ring

/-- A quarter of twice a double. -/
theorem double_div_four (x : ℝ) : 2 * (2 * x) / 4 = x := by ring

section Branches

variable {a b c : ℝ}

/-- No root is taken of a negative number if the first entry is the greatest. -/
theorem radicand_pos_of_first (htrace : ¬0 < a + b + c) (hfirst : b < a ∧ c < a) :
    0 < 1 + a - b - c := by
  linarith [hfirst.1, hfirst.2]

/-- No root is taken of a negative number if the second entry is the greatest. -/
theorem radicand_pos_of_second (htrace : ¬0 < a + b + c) (hfirst : ¬(b < a ∧ c < a))
    (hsecond : c < b) : 0 < 1 + b - a - c := by
  have hle : a ≤ b := by
    by_contra hlt
    exact hfirst ⟨by linarith, by linarith⟩
  linarith

/-- No root is taken of a negative number if neither is. -/
theorem radicand_pos_of_third (htrace : ¬0 < a + b + c) (hfirst : ¬(b < a ∧ c < a))
    (hsecond : ¬c < b) : 0 < 1 + c - a - b := by
  have hle : a ≤ c := by
    by_contra hlt
    exact hfirst ⟨by linarith, by linarith⟩
  linarith

end Branches

/-- Whatever the branch, the quaternion with these products comes out, up to its sign. -/
theorem Products.quaternionOf_eq (h : q.Products m) :
    ∃ σ : ℝ, (σ = 1 ∨ σ = -1) ∧ quaternionOf m = q.scale σ := by
  rw [quaternionOf]
  simp only [Scalar.nat_real, Scalar.lt_real, Scalar.sqrt_real, Scalar.ratio_real, Nat.cast_zero,
    Nat.cast_one, Nat.cast_ofNat, Bool.and_eq_true, decide_eq_true_eq]
  by_cases htrace : 0 < m.r1.a + m.r2.b + m.r3.c
  · obtain ⟨σ, hσ, hroot, hdiv⟩ := exists_sign h.ww (by linarith)
    refine ⟨σ, hσ, ?_⟩
    -- This branch multiplies by half the inverse of the root, where the others divide by twice it.
    rw [if_pos htrace, h.wx, h.wy, h.wz, Quaternion.scale, ← hdiv q.x, ← hdiv q.y, ← hdiv q.z]
    ext
    · rw [div_div_eq_mul_div, hroot]
      ring
    · ring
    · ring
    · ring
  by_cases hfirst : m.r2.b < m.r1.a ∧ m.r3.c < m.r1.a
  · obtain ⟨σ, hσ, hroot, hdiv⟩ := exists_sign h.xx (radicand_pos_of_first htrace hfirst)
    refine ⟨σ, hσ, ?_⟩
    rw [if_neg htrace, if_pos hfirst, h.wx, h.xy, h.xz, mul_comm q.w, hdiv, hdiv, hdiv, hroot,
      double_div_four]
    rfl
  by_cases hsecond : m.r3.c < m.r2.b
  · obtain ⟨σ, hσ, hroot, hdiv⟩ :=
      exists_sign h.yy (radicand_pos_of_second htrace hfirst hsecond)
    refine ⟨σ, hσ, ?_⟩
    rw [if_neg htrace, if_neg hfirst, if_pos hsecond, h.wy, h.xy, h.yz, mul_comm q.w,
      mul_comm q.x, hdiv, hdiv, hdiv, hroot, double_div_four]
    rfl
  · obtain ⟨σ, hσ, hroot, hdiv⟩ := exists_sign h.zz (radicand_pos_of_third htrace hfirst hsecond)
    refine ⟨σ, hσ, ?_⟩
    rw [if_neg htrace, if_neg hfirst, if_neg hsecond, h.wz, h.xz, h.yz, mul_comm q.w, mul_comm q.x,
      mul_comm q.y, hdiv, hdiv, hdiv, hroot, double_div_four]
    rfl

/-- No branch divides by zero or takes the root of a negative number, whatever the matrix. -/
theorem quaternionOf_guarded (m : Matrix4 ℝ) :
    quaternionOf (m.map Guarded.of) = (quaternionOf m).map Guarded.of := by
  have hroot {r : ℝ} (hr : 0 < r) : Scalar.sqrt (Guarded.of r) = Guarded.of √r :=
    Guarded.sqrt_of hr.le
  simp only [quaternionOf, Matrix4.map, Row4.map, Guarded.of_add_of, Guarded.of_sub_of,
    Guarded.nat_eq, Guarded.lt_of_of, Scalar.lt_real, Scalar.nat_real, Scalar.sqrt_real,
    Scalar.ratio_real, Nat.cast_zero, Nat.cast_one, Nat.cast_ofNat, Bool.and_eq_true,
    decide_eq_true_eq]
  by_cases htrace : 0 < m.r1.a + m.r2.b + m.r3.c
  · have hr : 0 < m.r1.a + m.r2.b + m.r3.c + 1 := by linarith
    have hpos := Real.sqrt_pos.mpr hr
    simp only [if_pos htrace, hroot hr]
    generalize √(m.r1.a + m.r2.b + m.r3.c + 1) = r at hpos ⊢
    -- The half inverse of the root is divided by in its turn.
    have hs : 1 / 2 / r ≠ 0 := by positivity
    rw [Guarded.ratio_eq 1 two_ne_zero, Guarded.ratio_eq 1 four_ne_zero, Nat.cast_one,
      Nat.cast_ofNat, Nat.cast_ofNat, Guarded.of_div_of _ hpos.ne', Guarded.of_div_of _ hs]
    simp only [Guarded.of_mul_of, Quaternion.map]
  have hdivide {r : ℝ} (hr : 0 < r) (x : ℝ) :
      Guarded.of x / (Guarded.of 2 * Scalar.sqrt (Guarded.of r)) = Guarded.of (x / (2 * √r)) := by
    have hne : 2 * √r ≠ 0 := mul_ne_zero two_ne_zero (Real.sqrt_pos.mpr hr).ne'
    rw [hroot hr, Guarded.of_mul_of, Guarded.of_div_of _ hne]
  have hquarter {r : ℝ} (hr : 0 < r) :
      Guarded.of 2 * Scalar.sqrt (Guarded.of r) / Guarded.of 4 = Guarded.of (2 * √r / 4) := by
    rw [hroot hr, Guarded.of_mul_of, Guarded.of_div_of _ four_ne_zero]
  by_cases hfirst : m.r2.b < m.r1.a ∧ m.r3.c < m.r1.a
  · have hr := radicand_pos_of_first htrace hfirst
    simp only [if_neg htrace, if_pos hfirst, hdivide hr, hquarter hr, Quaternion.map]
  by_cases hsecond : m.r3.c < m.r2.b
  · have hr := radicand_pos_of_second htrace hfirst hsecond
    simp only [if_neg htrace, if_neg hfirst, if_pos hsecond, hdivide hr, hquarter hr,
      Quaternion.map]
  · have hr := radicand_pos_of_third htrace hfirst hsecond
    simp only [if_neg htrace, if_neg hfirst, if_neg hsecond, hdivide hr, hquarter hr,
      Quaternion.map]

end Frame.Quaternion

/-! ### The quaternion of a frame -/

namespace Frame

open Frame.Quaternion

variable {f g : Frame ℝ}

/-- No step of the quaternion of a frame divides by zero or takes the root of a negative number. -/
theorem quaternion_guarded (f : Frame ℝ) :
    (f.map Guarded.of).quaternion = f.quaternion.map Guarded.of := by
  have hopposite (q : Frame.Quaternion ℝ) :
      (q.map Guarded.of).opposite = q.opposite.map Guarded.of := rfl
  have hlt (q : Frame.Quaternion ℝ) :
      Scalar.lt (q.map Guarded.of).w (Scalar.nat 0) = Scalar.lt q.w (Scalar.nat 0) := rfl
  simp only [quaternion, toMatrix_guarded, quaternionOf_guarded, hopposite, hlt]
  split
  · rfl
  · rfl

/-- The quaternion of a frame depends on its axes only. -/
theorem quaternion_congr (hx : f.xaxis = g.xaxis) (hy : f.yaxis = g.yaxis) :
    f.quaternion = g.quaternion := by
  have hz : f.zaxis = g.zaxis := by rw [zaxis, zaxis, hx, hy]
  rw [quaternion, quaternion, toMatrix, toMatrix, hx, hy, hz]
  rfl

/-- What represents the motion onto a frame turns the axes of the world onto those of the frame. -/
theorem Quaternion.Represents.axes {q : Frame.Quaternion ℝ} (h : q.Represents f.toMatrix) :
    hamilton q * Vector3.imaginary .unitX * star (hamilton q) = f.xaxis.imaginary ∧
    hamilton q * Vector3.imaginary .unitY * star (hamilton q) = f.yaxis.imaginary ∧
    hamilton q * Vector3.imaginary .unitZ * star (hamilton q) = f.zaxis.imaginary := by
  rw [Vector3.unitX_eq, Vector3.unitY_eq, Vector3.unitZ_eq, h.turn, h.turn, h.turn,
    Matrix4.turn_unitX, Matrix4.turn_unitY, Matrix4.turn_unitZ]
  exact ⟨rfl, rfl, rfl⟩

/-- The quaternion of a frame represents the rotation onto the frame, and its first component is
not negative. -/
theorem quaternion_represents (hf : f.Orthonormal) :
    f.quaternion.Represents f.toMatrix ∧ 0 ≤ f.quaternion.w := by
  -- The rotation is represented by some quaternion, and the extraction finds it or its opposite.
  obtain ⟨q, hq⟩ := exists_represents hf.rigid
  have hof : (quaternionOf f.toMatrix).Represents f.toMatrix := by
    obtain ⟨σ, rfl | rfl, heq⟩ := hq.products.quaternionOf_eq
    · rwa [heq, scale_one]
    · rw [heq, scale_neg_one]
      exact hq.opposite
  rw [quaternion]
  simp only [Scalar.lt_real, Scalar.nat_real, Nat.cast_zero, decide_eq_true_eq]
  by_cases hneg : (quaternionOf f.toMatrix).w < 0
  · rw [if_pos hneg]
    exact ⟨hof.opposite, (neg_pos.mpr hneg).le⟩
  · rw [if_neg hneg]
    exact ⟨hof, not_lt.mp hneg⟩

/-- The quaternion of a frame with perpendicular unit axes is found without dividing by zero. It has
unit length and a first component that is not negative, and it turns the axes of the world onto
those of the frame. So frames have the same quaternion only when they have the same axes. -/
theorem quaternion_turns_axes (hf : f.Orthonormal) (hg : g.Orthonormal) :
    (f.map Guarded.of).quaternion = f.quaternion.map Guarded.of ∧
    f.quaternion.w * f.quaternion.w + f.quaternion.x * f.quaternion.x +
      f.quaternion.y * f.quaternion.y + f.quaternion.z * f.quaternion.z = 1 ∧
    0 ≤ f.quaternion.w ∧
    (hamilton f.quaternion * Vector3.imaginary .unitX * star (hamilton f.quaternion) =
        f.xaxis.imaginary ∧
      hamilton f.quaternion * Vector3.imaginary .unitY * star (hamilton f.quaternion) =
        f.yaxis.imaginary ∧
      hamilton f.quaternion * Vector3.imaginary .unitZ * star (hamilton f.quaternion) =
        f.zaxis.imaginary) ∧
    (f.quaternion = g.quaternion ↔
      f.xaxis = g.xaxis ∧ f.yaxis = g.yaxis ∧ f.zaxis = g.zaxis) := by
  obtain ⟨hf, hw⟩ := quaternion_represents hf
  obtain ⟨hfx, hfy, hfz⟩ := hf.axes
  refine ⟨quaternion_guarded f, hf.unit, hw, ⟨hfx, hfy, hfz⟩, fun h => ?_, fun h => ?_⟩
  · obtain ⟨hgx, hgy, hgz⟩ := (quaternion_represents hg).1.axes
    rw [← h] at hgx hgy hgz
    exact ⟨Vector3.imaginary_injective (hfx.symm.trans hgx),
      Vector3.imaginary_injective (hfy.symm.trans hgy),
      Vector3.imaginary_injective (hfz.symm.trans hgz)⟩
  · obtain ⟨hx, hy, -⟩ := h
    exact quaternion_congr hx hy

/-- A frame half a turn from the world, about an axis between its second and third. The trace is
negative, and the last two entries of the diagonal are the same. -/
noncomputable def halfTurned (p : Vector3 ℝ) : Frame ℝ := ⟨p, ⟨-1, 0, 0⟩, ⟨0, 0, 1⟩⟩

/-- The quaternion of a half turn is the same wherever the frame is, and turns the second axis. -/
theorem quaternion_turns_axes_halfTurned :
    (halfTurned ⟨1, 2, 3⟩).Orthonormal ∧ (halfTurned ⟨0, 0, 0⟩).Orthonormal ∧
    ((halfTurned ⟨1, 2, 3⟩).map Guarded.of).quaternion =
      (halfTurned ⟨1, 2, 3⟩).quaternion.map Guarded.of ∧
    0 ≤ (halfTurned ⟨1, 2, 3⟩).quaternion.w ∧
    hamilton (halfTurned ⟨1, 2, 3⟩).quaternion * Vector3.imaginary .unitY *
      star (hamilton (halfTurned ⟨1, 2, 3⟩).quaternion) = Vector3.imaginary ⟨0, 0, 1⟩ ∧
    (halfTurned ⟨1, 2, 3⟩).quaternion = (halfTurned ⟨0, 0, 0⟩).quaternion := by
  have horthonormal (p : Vector3 ℝ) : (halfTurned p).Orthonormal :=
    ⟨by simp [halfTurned, Vector3.dot_eq], by simp [halfTurned, Vector3.dot_eq],
      by simp [halfTurned, Vector3.dot_eq]⟩
  have hf := horthonormal ⟨1, 2, 3⟩
  have hg := horthonormal ⟨0, 0, 0⟩
  obtain ⟨hguarded, -, hw, ⟨-, hy, -⟩, hsame⟩ := quaternion_turns_axes hf hg
  exact ⟨hf, hg, hguarded, hw, hy, hsame.mpr ⟨rfl, rfl, rfl⟩⟩

end Frame

end RobotProgram
