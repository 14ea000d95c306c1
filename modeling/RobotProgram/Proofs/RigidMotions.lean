import Mathlib.Algebra.Group.Defs
import Mathlib.Tactic.LinearCombination
import RobotProgram.Geometry.Frame
import RobotProgram.Proofs.RealScalar

/-!
# Rigid motions

Vectors and motions over the real numbers. A motion is rigid when it keeps the scalar and the vector
product of directions (`Matrix4.Rigid`). Rigid motions are closed under products, and
`Matrix4.inverse`, which only transposes the rotation, undoes them on both sides
(`Rigid.inverse_mul`, `Rigid.mul_inverse`). They are the motions onto frames with perpendicular unit
axes: such a frame has a rigid motion, and `Frame.ofMatrix` gives back the frame of a rigid motion
(`Frame.ofMatrix_eq_ok_iff`).

Identities of vectors are checked by coordinates. What is said about motions goes through their
action on directions, `turn`, and on points, `apply`.
-/

namespace RobotProgram

/-! ### Vectors -/

namespace Vector3

/-- The first coordinate of a sum. -/
@[simp] theorem add_x (a b : Vector3 ℝ) : (a + b).x = a.x + b.x := rfl

/-- The second coordinate of a sum. -/
@[simp] theorem add_y (a b : Vector3 ℝ) : (a + b).y = a.y + b.y := rfl

/-- The third coordinate of a sum. -/
@[simp] theorem add_z (a b : Vector3 ℝ) : (a + b).z = a.z + b.z := rfl

/-- The first coordinate of a difference. -/
@[simp] theorem sub_x (a b : Vector3 ℝ) : (a - b).x = a.x - b.x := rfl

/-- The second coordinate of a difference. -/
@[simp] theorem sub_y (a b : Vector3 ℝ) : (a - b).y = a.y - b.y := rfl

/-- The third coordinate of a difference. -/
@[simp] theorem sub_z (a b : Vector3 ℝ) : (a - b).z = a.z - b.z := rfl

/-- The first coordinate of the opposite. -/
@[simp] theorem neg_x (a : Vector3 ℝ) : (-a).x = -a.x := rfl

/-- The second coordinate of the opposite. -/
@[simp] theorem neg_y (a : Vector3 ℝ) : (-a).y = -a.y := rfl

/-- The third coordinate of the opposite. -/
@[simp] theorem neg_z (a : Vector3 ℝ) : (-a).z = -a.z := rfl

/-- The first coordinate of a multiple. -/
@[simp] theorem scale_x (k : ℝ) (a : Vector3 ℝ) : (a.scale k).x = a.x * k := rfl

/-- The second coordinate of a multiple. -/
@[simp] theorem scale_y (k : ℝ) (a : Vector3 ℝ) : (a.scale k).y = a.y * k := rfl

/-- The third coordinate of a multiple. -/
@[simp] theorem scale_z (k : ℝ) (a : Vector3 ℝ) : (a.scale k).z = a.z * k := rfl

/-- The first coordinate of the vector product. -/
@[simp] theorem cross_x (a b : Vector3 ℝ) : (a.cross b).x = a.y * b.z - a.z * b.y := rfl

/-- The second coordinate of the vector product. -/
@[simp] theorem cross_y (a b : Vector3 ℝ) : (a.cross b).y = a.z * b.x - a.x * b.z := rfl

/-- The third coordinate of the vector product. -/
@[simp] theorem cross_z (a b : Vector3 ℝ) : (a.cross b).z = a.x * b.y - a.y * b.x := rfl

/-- Dividing by one changes nothing. -/
@[simp] theorem divide_one (a : Vector3 ℝ) : a.divide 1 = a := by
  ext <;> exact div_one _

/-- The scalar product by coordinates. -/
theorem dot_eq (a b : Vector3 ℝ) : a.dot b = a.x * b.x + a.y * b.y + a.z * b.z := rfl

/-- The zero vector by coordinates. -/
@[simp] theorem zero_eq : (zero : Vector3 ℝ) = ⟨0, 0, 0⟩ := by simp [zero]

/-- The first unit vector by coordinates. -/
@[simp] theorem unitX_eq : (unitX : Vector3 ℝ) = ⟨1, 0, 0⟩ := by simp [unitX]

/-- The second unit vector by coordinates. -/
@[simp] theorem unitY_eq : (unitY : Vector3 ℝ) = ⟨0, 1, 0⟩ := by simp [unitY]

/-- The third unit vector by coordinates. -/
@[simp] theorem unitZ_eq : (unitZ : Vector3 ℝ) = ⟨0, 0, 1⟩ := by simp [unitZ]

/-- Taking the zero vector away changes nothing. -/
theorem sub_zero (a : Vector3 ℝ) : a - zero = a := by
  ext <;> simp

/-- Adding to the zero vector changes nothing. -/
theorem zero_add (a : Vector3 ℝ) : zero + a = a := by
  ext <;> simp

/-- The scalar product is symmetric. -/
theorem dot_comm (a b : Vector3 ℝ) : a.dot b = b.dot a := by
  simp only [dot_eq]
  ring

/-- The scalar product with a difference. -/
theorem dot_sub (a b c : Vector3 ℝ) : a.dot (b - c) = a.dot b - a.dot c := by
  simp only [dot_eq, sub_x, sub_y, sub_z]
  ring

/-- The scalar product with the opposite. -/
theorem neg_dot (a b : Vector3 ℝ) : (-a).dot b = -a.dot b := by
  simp only [dot_eq, neg_x, neg_y, neg_z]
  ring

/-- No vector has a negative square. -/
theorem dot_self_nonneg (a : Vector3 ℝ) : 0 ≤ a.dot a :=
  add_nonneg (add_nonneg (mul_self_nonneg a.x) (mul_self_nonneg a.y)) (mul_self_nonneg a.z)

/-- No vector has a negative length. -/
theorem norm_nonneg (a : Vector3 ℝ) : 0 ≤ a.norm := Real.sqrt_nonneg _

/-- The square of the length is the scalar product of the vector with itself. -/
theorem norm_mul_self (a : Vector3 ℝ) : a.norm * a.norm = a.dot a :=
  Real.mul_self_sqrt a.dot_self_nonneg

/-- The zero vector has no length. -/
@[simp] theorem norm_origin : (⟨0, 0, 0⟩ : Vector3 ℝ).norm = 0 := by
  simp [norm, dot_eq]

/-- Vectors of one length have equal squares, and the other way round. -/
theorem norm_eq_norm_iff {a b : Vector3 ℝ} : a.norm = b.norm ↔ a.dot a = b.dot b :=
  Real.sqrt_inj a.dot_self_nonneg b.dot_self_nonneg

/-- A unit vector has the square one. -/
theorem norm_eq_one_iff {a : Vector3 ℝ} : a.norm = 1 ↔ a.dot a = 1 := Real.sqrt_eq_one

/-- A vector without length is zero. -/
theorem eq_zero_of_dot_self {a : Vector3 ℝ} (h : a.dot a = 0) : a = ⟨0, 0, 0⟩ := by
  rw [dot_eq] at h
  ext <;> nlinarith [mul_self_nonneg a.x, mul_self_nonneg a.y, mul_self_nonneg a.z]

/-- Only the zero vector has no length. -/
theorem eq_zero_of_norm {a : Vector3 ℝ} (h : a.norm = 0) : a = ⟨0, 0, 0⟩ := by
  have hsquare : a.dot a = 0 := by rw [← norm_mul_self, h, mul_zero]
  exact eq_zero_of_dot_self hsquare

/-- Vectors with the same products are equal. -/
theorem eq_of_dot {a b : Vector3 ℝ} (h : ∀ v, a.dot v = b.dot v) : a = b := by
  have hx := h ⟨1, 0, 0⟩
  have hy := h ⟨0, 1, 0⟩
  have hz := h ⟨0, 0, 1⟩
  simp only [dot_eq] at hx hy hz
  ext <;> linarith

/-- Two perpendicular unit vectors and their vector product give coordinates. -/
theorem eq_add_of_orthonormal {a b : Vector3 ℝ} (haa : a.dot a = 1) (hbb : b.dot b = 1)
    (hab : a.dot b = 0) (v : Vector3 ℝ) :
    v = a.scale (a.dot v) + b.scale (b.dot v) + (a.cross b).scale ((a.cross b).dot v) := by
  simp only [dot_eq] at haa hbb hab
  ext <;> simp [dot_eq] <;> grind

/-- The vector product is perpendicular to its factors. -/
theorem dot_cross_left (a b : Vector3 ℝ) : a.dot (a.cross b) = 0 := by
  simp only [dot_eq, cross_x, cross_y, cross_z]
  ring

/-- The vector product is perpendicular to the second factor. -/
theorem dot_cross_right (a b : Vector3 ℝ) : b.dot (a.cross b) = 0 := by
  simp only [dot_eq, cross_x, cross_y, cross_z]
  ring

/-- The vector product of unit vectors is as long as the sine of the angle between them. -/
theorem dot_self_cross {a b : Vector3 ℝ} (ha : a.dot a = 1) (hb : b.dot b = 1) :
    (a.cross b).dot (a.cross b) = 1 - a.dot b * a.dot b := by
  simp only [dot_eq, cross_x, cross_y, cross_z] at ha hb ⊢
  linear_combination (b.x * b.x + b.y * b.y + b.z * b.z) * ha + hb

/-- The product with a vector that is divided. -/
theorem dot_divide (a b : Vector3 ℝ) (k : ℝ) : a.dot (b.divide k) = a.dot b / k := by
  change a.x * (b.x / k) + a.y * (b.y / k) + a.z * (b.z / k) = _
  rw [dot_eq]
  ring

/-- A vector divided by its length has unit length. -/
theorem dot_self_divide_norm {a : Vector3 ℝ} (h : a.norm ≠ 0) :
    (a.divide a.norm).dot (a.divide a.norm) = 1 := by
  have hsquare := a.norm_mul_self
  rw [dot_divide, dot_comm, dot_divide, ← hsquare]
  field_simp

/-- Every direction but zero can be scaled to unit length. -/
theorem unit_of_ne_zero {a : Vector3 ℝ} (h : a ≠ ⟨0, 0, 0⟩) : a.unit = .ok (a.divide a.norm) := by
  have hnorm : a.norm ≠ 0 := mt eq_zero_of_norm h
  rw [unit, if_neg (by simpa using hnorm)]

/-- A direction that can be scaled to unit length is scaled so. -/
theorem dot_self_of_unit {a b : Vector3 ℝ} (h : a.unit = .ok b) : b.dot b = 1 := by
  unfold unit at h
  split_ifs at h with hnorm
  obtain rfl := Except.ok.inj h
  exact dot_self_divide_norm (by simpa using hnorm)

/-- A frame axis that can be scaled to unit length is scaled so. -/
theorem normalize_eq_ok {a b : Vector3 ℝ} (h : a.normalize = .ok b) :
    b.dot b = 1 ∧ b = a.divide a.norm := by
  unfold normalize at h
  split_ifs at h with hoverflow hnorm
  obtain rfl := Except.ok.inj h
  exact ⟨dot_self_divide_norm (by simpa using hnorm), rfl⟩

/-- Unit vectors keep their length when they are scaled to unit length. -/
theorem unit_of_dot_self {a : Vector3 ℝ} (h : a.dot a = 1) : a.unit = .ok a := by
  rw [unit, norm_eq_one_iff.mpr h]
  simp

/-- A unit vector is normalised already. -/
theorem normalize_of_dot_self {a : Vector3 ℝ} (h : a.dot a = 1) : a.normalize = .ok a := by
  rw [normalize, norm_eq_one_iff.mpr h]
  simp [squareOverflows]

end Vector3

/-! ### Motions -/

namespace Matrix4

/-- The first coordinate of a turned vector. -/
@[simp]
theorem turn_x (m : Matrix4 ℝ) (v : Vector3 ℝ) :
    (m.turn v).x = m.r1.a * v.x + m.r1.b * v.y + m.r1.c * v.z := rfl

/-- The second coordinate of a turned vector. -/
@[simp]
theorem turn_y (m : Matrix4 ℝ) (v : Vector3 ℝ) :
    (m.turn v).y = m.r2.a * v.x + m.r2.b * v.y + m.r2.c * v.z := rfl

/-- The third coordinate of a turned vector. -/
@[simp]
theorem turn_z (m : Matrix4 ℝ) (v : Vector3 ℝ) :
    (m.turn v).z = m.r3.a * v.x + m.r3.b * v.y + m.r3.c * v.z := rfl

/-- A sum is turned as its parts. -/
theorem turn_add (m : Matrix4 ℝ) (a b : Vector3 ℝ) : m.turn (a + b) = m.turn a + m.turn b := by
  ext <;> simp <;> ring

/-- A difference is turned as its parts. -/
theorem turn_sub (m : Matrix4 ℝ) (a b : Vector3 ℝ) : m.turn (a - b) = m.turn a - m.turn b := by
  ext <;> simp <;> ring

/-- A multiple of a vector is turned as the vector. -/
theorem turn_scale (m : Matrix4 ℝ) (k : ℝ) (a : Vector3 ℝ) :
    m.turn (a.scale k) = (m.turn a).scale k := by
  ext <;> simp <;> ring

/-- The opposite of a vector is turned as the vector. -/
theorem turn_neg (m : Matrix4 ℝ) (a : Vector3 ℝ) : m.turn (-a) = -m.turn a := by
  ext <;> simp <;> ring

/-- The first unit vector is turned into the first column. -/
theorem turn_unitX (m : Matrix4 ℝ) : m.turn ⟨1, 0, 0⟩ = m.columnX := by
  ext <;> simp [columnX]

/-- The second unit vector is turned into the second column. -/
theorem turn_unitY (m : Matrix4 ℝ) : m.turn ⟨0, 1, 0⟩ = m.columnY := by
  ext <;> simp [columnY]

/-- The third unit vector is turned into the third column. -/
theorem turn_unitZ (m : Matrix4 ℝ) : m.turn ⟨0, 0, 1⟩ = m.columnZ := by
  ext <;> simp [columnZ]

/-- A matrix of columns turns a vector into the sum of their multiples. -/
@[simp]
theorem ofColumns_turn (x y z p v : Vector3 ℝ) :
    (ofColumns x y z p).turn v = x.scale v.x + y.scale v.y + z.scale v.z := by
  ext <;> rfl

/-- A matrix of columns has the position of the last one. -/
@[simp]
theorem ofColumns_position (x y z p : Vector3 ℝ) : (ofColumns x y z p).position = p := rfl

/-- A matrix of columns has the last row of a motion. -/
@[simp]
theorem ofColumns_r4 (x y z p : Vector3 ℝ) : (ofColumns x y z p).r4 = ⟨0, 0, 0, 1⟩ := by
  simp [ofColumns]

/-- The first row of a product. -/
theorem mul_r1 (m n : Matrix4 ℝ) : (m * n).r1 = rowMul m.r1 n := rfl

/-- The second row of a product. -/
theorem mul_r2 (m n : Matrix4 ℝ) : (m * n).r2 = rowMul m.r2 n := rfl

/-- The third row of a product. -/
theorem mul_r3 (m n : Matrix4 ℝ) : (m * n).r3 = rowMul m.r3 n := rfl

/-- The last row of a product. -/
theorem mul_r4 (m n : Matrix4 ℝ) : (m * n).r4 = rowMul m.r4 n := rfl

/-- A row times a matrix, by entries. -/
theorem rowMul_eq (r : Row4 ℝ) (n : Matrix4 ℝ) :
    rowMul r n = ⟨r.a * n.r1.a + r.b * n.r2.a + r.c * n.r3.a + r.d * n.r4.a,
      r.a * n.r1.b + r.b * n.r2.b + r.c * n.r3.b + r.d * n.r4.b,
      r.a * n.r1.c + r.b * n.r2.c + r.c * n.r3.c + r.d * n.r4.c,
      r.a * n.r1.d + r.b * n.r2.d + r.c * n.r3.d + r.d * n.r4.d⟩ := rfl

/-- A row may be multiplied by two matrices or by their product. -/
theorem rowMul_rowMul (r : Row4 ℝ) (m n : Matrix4 ℝ) :
    rowMul (rowMul r m) n = rowMul r (m * n) := by
  simp only [rowMul_eq, mul_r1, mul_r2, mul_r3, mul_r4, Row4.mk.injEq]
  refine ⟨?_, ?_, ?_, ?_⟩ <;> ring

/-- A row times the identity is the row. -/
theorem rowMul_one (r : Row4 ℝ) : rowMul r one = r := by
  simp [rowMul_eq, one, ofColumns]

/-- Motions make a monoid. -/
noncomputable instance : Monoid (Matrix4 ℝ) where
  one := one
  mul_assoc l m n := by
    ext1 <;> exact rowMul_rowMul _ _ _
  one_mul m := by
    change one * m = m
    ext1 <;> simp [mul_r1, mul_r2, mul_r3, mul_r4, rowMul_eq, one, ofColumns]
  mul_one m := by
    ext1 <;> exact rowMul_one _

/-- The identity is the one of matrices. -/
theorem one_eq : (one : Matrix4 ℝ) = 1 := rfl

/-- A motion is known by its columns of directions and the image of the origin. -/
theorem ext_of_turn {m n : Matrix4 ℝ} (hm : m.r4 = ⟨0, 0, 0, 1⟩) (hn : n.r4 = ⟨0, 0, 0, 1⟩)
    (hturn : ∀ v, m.turn v = n.turn v) (hposition : m.position = n.position) : m = n := by
  have hx := hturn ⟨1, 0, 0⟩
  have hy := hturn ⟨0, 1, 0⟩
  have hz := hturn ⟨0, 0, 1⟩
  simp only [turn_unitX, turn_unitY, turn_unitZ, columnX, columnY, columnZ,
    Vector3.mk.injEq] at hx hy hz
  simp only [position, Vector3.mk.injEq] at hposition
  ext1
  · ext <;> tauto
  · ext <;> tauto
  · ext <;> tauto
  · rw [hm, hn]

/-- What a motion does to a direction does not depend on where the origin goes. -/
theorem mul_turn {m n : Matrix4 ℝ} (hn : n.r4 = ⟨0, 0, 0, 1⟩) (v : Vector3 ℝ) :
    (m * n).turn v = m.turn (n.turn v) := by
  ext <;> simp [mul_r1, mul_r2, mul_r3, rowMul_eq, hn] <;> ring

/-- The position of a product is that of the second factor, moved by the first. -/
theorem mul_position {m n : Matrix4 ℝ} (hn : n.r4 = ⟨0, 0, 0, 1⟩) :
    (m * n).position = m.apply n.position := by
  ext <;> simp [mul_r1, mul_r2, mul_r3, rowMul_eq, hn, position, apply]

/-- A product moves a point as its factors do, the second one first. -/
theorem mul_apply {m n : Matrix4 ℝ} (hn : n.r4 = ⟨0, 0, 0, 1⟩) (p : Vector3 ℝ) :
    (m * n).apply p = m.apply (n.apply p) := by
  simp only [apply, mul_turn hn, mul_position hn, turn_add]
  ext <;> simp <;> ring

/-- A product of matrices with the last row of a motion has it too. -/
theorem mul_bottom {m n : Matrix4 ℝ} (hm : m.r4 = ⟨0, 0, 0, 1⟩) (hn : n.r4 = ⟨0, 0, 0, 1⟩) :
    (m * n).r4 = ⟨0, 0, 0, 1⟩ := by
  simp [mul_r4, rowMul_eq, hm, hn]

/-- A motion that keeps lengths, angles and the orientation of space. -/
structure Rigid (m : Matrix4 ℝ) : Prop where
  bottom : m.r4 = ⟨0, 0, 0, 1⟩
  dot : ∀ a b, (m.turn a).dot (m.turn b) = a.dot b
  cross : ∀ a b, m.turn (a.cross b) = (m.turn a).cross (m.turn b)

namespace Rigid

variable {m n : Matrix4 ℝ}

/-- A product of rigid motions is rigid. -/
theorem mul (hm : m.Rigid) (hn : n.Rigid) : (m * n).Rigid where
  bottom := mul_bottom hm.bottom hn.bottom
  dot a b := by rw [mul_turn hn.bottom, mul_turn hn.bottom, hm.dot, hn.dot]
  cross a b := by simp only [mul_turn hn.bottom, hn.cross, hm.cross]

/-- A displacement is rigid. -/
theorem displacement (v : Vector3 ℝ) : (displacement v).Rigid where
  bottom := by simp [Matrix4.displacement]
  dot a b := by simp [Matrix4.displacement, Vector3.dot_eq]
  cross a b := by ext <;> simp [Matrix4.displacement]

/-- The motion that moves nothing is rigid. -/
theorem one : (1 : Matrix4 ℝ).Rigid := displacement .zero

end Rigid

/-! ### Undoing a motion -/

/-- The transpose moves a factor of a scalar product to the other side. -/
theorem dot_turnBack (m : Matrix4 ℝ) (a b : Vector3 ℝ) :
    (m.turnBack.turn a).dot b = a.dot (m.turn b) := by
  simp [turnBack, Vector3.dot_eq]
  ring

/-- The inverse turns vectors back. -/
theorem inverse_turn (m : Matrix4 ℝ) (v : Vector3 ℝ) : m.inverse.turn v = m.turnBack.turn v := by
  rw [inverse, mul_turn (by simp [turnBack])]
  ext <;> simp [displacement]

/-- The inverse has the last row of a motion. -/
theorem inverse_bottom (m : Matrix4 ℝ) : m.inverse.r4 = ⟨0, 0, 0, 1⟩ :=
  mul_bottom (by simp [displacement]) (by simp [turnBack])

/-- The position of the inverse is the opposite one, turned back. -/
theorem inverse_position (m : Matrix4 ℝ) :
    m.inverse.position = -(m.turnBack.turn m.position) := by
  rw [inverse, mul_position (by simp [turnBack])]
  ext <;> simp [displacement, apply, turnBack]

namespace Rigid

variable {m n : Matrix4 ℝ}

/-- A vector that is turned by a rigid motion is turned back. -/
theorem turnBack_turn (hm : m.Rigid) (v : Vector3 ℝ) : m.turnBack.turn (m.turn v) = v := by
  refine Vector3.eq_of_dot fun w => ?_
  rw [dot_turnBack, hm.dot]

/-- The columns are perpendicular unit vectors, the third the vector product of the others. -/
theorem columns (hm : m.Rigid) : m.columnX.dot m.columnX = 1 ∧ m.columnY.dot m.columnY = 1 ∧
    m.columnX.dot m.columnY = 0 ∧ m.columnZ = m.columnX.cross m.columnY := by
  have hunit : (⟨1, 0, 0⟩ : Vector3 ℝ).cross ⟨0, 1, 0⟩ = ⟨0, 0, 1⟩ := by ext <;> simp
  rw [← turn_unitX, ← turn_unitY, ← turn_unitZ, ← hm.cross, hunit]
  simp [hm.dot, Vector3.dot_eq]

/-- The coordinates of a direction along the columns give the direction. -/
theorem turn_turnBack (hm : m.Rigid) (v : Vector3 ℝ) : m.turn (m.turnBack.turn v) = v := by
  obtain ⟨hxx, hyy, hxy, hz⟩ := hm.columns
  have hv := Vector3.eq_add_of_orthonormal hxx hyy hxy v
  rw [← hz] at hv
  nth_rewrite 2 [hv]
  ext <;> simp [turnBack, columnX, columnY, columnZ, Vector3.dot_eq]

/-- The inverse undoes a rigid motion that is made before it. -/
theorem inverse_mul (hm : m.Rigid) : m.inverse * m = 1 := by
  refine ext_of_turn (mul_bottom m.inverse_bottom hm.bottom) one.bottom (fun v => ?_) ?_
  · rw [mul_turn hm.bottom, inverse_turn, hm.turnBack_turn]
    ext <;> simp [← one_eq, Matrix4.one]
  · rw [mul_position hm.bottom, apply, inverse_turn, inverse_position]
    ext <;> simp [← one_eq, Matrix4.one]

/-- The inverse undoes a rigid motion that is made after it. -/
theorem mul_inverse (hm : m.Rigid) : m * m.inverse = 1 := by
  refine ext_of_turn (mul_bottom hm.bottom m.inverse_bottom) one.bottom (fun v => ?_) ?_
  · rw [mul_turn m.inverse_bottom, inverse_turn, hm.turn_turnBack]
    ext <;> simp [← one_eq, Matrix4.one]
  · rw [mul_position m.inverse_bottom, apply, inverse_position, turn_neg, hm.turn_turnBack]
    ext <;> simp [← one_eq, Matrix4.one]

/-- The inverse of a rigid motion is rigid. -/
theorem inverse (hm : m.Rigid) : m.inverse.Rigid where
  bottom := m.inverse_bottom
  dot a b := by rw [inverse_turn, inverse_turn, dot_turnBack, hm.turn_turnBack]
  cross a b := by
    simp only [inverse_turn]
    rw [← hm.turnBack_turn ((m.turnBack.turn a).cross _), hm.cross, hm.turn_turnBack,
      hm.turn_turnBack]

/-- A rigid factor on the left goes to the other side as its inverse. -/
theorem mul_eq_iff (hm : m.Rigid) {l : Matrix4 ℝ} : m * n = l ↔ n = m.inverse * l := by
  constructor
  · rintro rfl
    rw [← mul_assoc, hm.inverse_mul, one_mul]
  · rintro rfl
    rw [← mul_assoc, hm.mul_inverse, one_mul]

/-- The inverse of a rigid factor on the left goes to the other side as the factor. -/
theorem inverse_mul_eq_iff (hm : m.Rigid) {l : Matrix4 ℝ} : m.inverse * n = l ↔ n = m * l := by
  rw [eq_comm, ← hm.mul_eq_iff, eq_comm]

/-- The inverse of a product is the product of the inverses, the other way round. -/
theorem mul_inverse_rev (hm : m.Rigid) (hn : n.Rigid) :
    (m * n).inverse = n.inverse * m.inverse := by
  -- The inverse is the only motion that undoes the product.
  have h : m * n * (n.inverse * m.inverse) = 1 := by
    rw [mul_assoc, ← mul_assoc n, hn.mul_inverse, one_mul, hm.mul_inverse]
  rw [(hm.mul hn).mul_eq_iff, mul_one] at h
  exact h.symm

/-- A point that is moved by a rigid motion is moved back. -/
theorem inverse_apply_apply (hm : m.Rigid) (p : Vector3 ℝ) : m.inverse.apply (m.apply p) = p := by
  rw [← mul_apply hm.bottom, hm.inverse_mul]
  ext <;> simp [← one_eq, Matrix4.one, apply]

/-- The motion that moves nothing is its own inverse. -/
theorem inverse_one : (1 : Matrix4 ℝ).inverse = 1 := by
  rw [← mul_one (1 : Matrix4 ℝ).inverse, one.inverse_mul]

/-- Two rigid motions are equal if they agree on two perpendicular directions and on a point. -/
theorem eq_of_agree (hm : m.Rigid) (hn : n.Rigid) {a b p : Vector3 ℝ} (haa : a.dot a = 1)
    (hbb : b.dot b = 1) (hab : a.dot b = 0) (ha : m.turn a = n.turn a) (hb : m.turn b = n.turn b)
    (hp : m.apply p = n.apply p) : m = n := by
  have hturn (v : Vector3 ℝ) : m.turn v = n.turn v := by
    rw [Vector3.eq_add_of_orthonormal haa hbb hab v]
    simp only [turn_add, turn_scale, hm.cross, hn.cross, ha, hb]
  refine ext_of_turn hm.bottom hn.bottom hturn ?_
  simp only [apply, hturn] at hp
  have hx := congrArg Vector3.x hp
  have hy := congrArg Vector3.y hp
  have hz := congrArg Vector3.z hp
  simp only [Vector3.add_x, Vector3.add_y, Vector3.add_z, add_right_inj] at hx hy hz
  exact Vector3.ext hx hy hz

end Rigid

end Matrix4

/-! ### Frames -/

namespace Frame

/-- A frame with perpendicular axes of unit length, as the constructor of frames makes them. -/
structure Orthonormal (f : Frame ℝ) : Prop where
  xx : f.xaxis.dot f.xaxis = 1
  yy : f.yaxis.dot f.yaxis = 1
  xy : f.xaxis.dot f.yaxis = 0

/-- The axes of the world are perpendicular unit vectors. -/
theorem world_orthonormal : (world : Frame ℝ).Orthonormal where
  xx := by simp [world, Vector3.dot_eq]
  yy := by simp [world, Vector3.dot_eq]
  xy := by simp [world, Vector3.dot_eq]

/-- The third axis of the world. -/
theorem world_zaxis : (world : Frame ℝ).zaxis = ⟨0, 0, 1⟩ := by
  simp [world, zaxis, Vector3.cross]

/-- The matrix of the world is the identity. -/
theorem world_toMatrix : (world : Frame ℝ).toMatrix = 1 := by
  rw [toMatrix, world_zaxis, ← Matrix4.one_eq, Matrix4.one, Vector3.unitZ_eq]
  rfl

/-- The third axis is a unit vector too. -/
theorem Orthonormal.zz {f : Frame ℝ} (h : f.Orthonormal) : f.zaxis.dot f.zaxis = 1 := by
  rw [zaxis, Vector3.dot_self_cross h.xx h.yy, h.xy, mul_zero, sub_zero]

/-- The matrix of a frame with such axes is a rigid motion. -/
theorem Orthonormal.rigid {f : Frame ℝ} (h : f.Orthonormal) : f.toMatrix.Rigid where
  bottom := by simp [toMatrix]
  dot a b := by
    have hzz := h.zz
    obtain ⟨hxx, hyy, hxy⟩ := h
    simp [toMatrix, zaxis, Vector3.dot_eq] at *
    linear_combination (a.x * b.x) * hxx + (a.y * b.y) * hyy + (a.z * b.z) * hzz +
      (a.x * b.y + a.y * b.x) * hxy
  cross a b := by
    obtain ⟨hxx, hyy, hxy⟩ := h
    simp only [Vector3.dot_eq] at hxx hyy hxy
    ext
    all_goals simp [toMatrix, zaxis]
    · grind
    · grind
    · grind

/-- The constructor of frames makes perpendicular axes of unit length, whatever it is given. -/
theorem orthonormal_of_ofAxes {p x y : Vector3 ℝ} {f : Frame ℝ} (h : ofAxes p x y = .ok f) :
    f.Orthonormal := by
  obtain ⟨x', hx, h⟩ := Outcome.bind_eq_ok.mp h
  obtain ⟨y', hy, h⟩ := Outcome.bind_eq_ok.mp h
  obtain ⟨z', hz, h⟩ := Outcome.bind_eq_ok.mp h
  obtain rfl := Outcome.pure_eq_ok.mp h
  obtain ⟨hxx, -⟩ := Vector3.normalize_eq_ok hx
  obtain ⟨hzz, hz⟩ := Vector3.normalize_eq_ok hz
  have hxz : x'.dot z' = 0 := by
    rw [hz, Vector3.dot_divide]
    simp only [Vector3.dot_eq, Vector3.cross_x, Vector3.cross_y, Vector3.cross_z]
    ring
  simp only [Vector3.dot_eq] at hxx hzz hxz
  refine ⟨hxx, ?_, ?_⟩
  · simp only [Vector3.dot_eq, Vector3.cross_x, Vector3.cross_y, Vector3.cross_z]
    grind
  · simp only [Vector3.dot_eq, Vector3.cross_x, Vector3.cross_y, Vector3.cross_z]
    ring

/-- The constructor of frames keeps perpendicular axes of unit length. -/
theorem ofAxes_of_orthonormal {f : Frame ℝ} (h : f.Orthonormal) :
    ofAxes f.point f.xaxis f.yaxis = .ok f := by
  have hy : f.zaxis.cross f.xaxis = f.yaxis := by
    obtain ⟨hxx, hyy, hxy⟩ := h
    simp only [Vector3.dot_eq] at hxx hyy hxy
    ext <;> simp only [zaxis, Vector3.cross_x, Vector3.cross_y, Vector3.cross_z] <;> grind
  rw [ofAxes, Vector3.normalize_of_dot_self h.xx, Outcome.ok_bind, ofUnitAxis,
    Vector3.normalize_of_dot_self h.yy, Outcome.ok_bind]
  change (f.zaxis.normalize >>= fun z => pure ⟨f.point, f.xaxis, z.cross f.xaxis⟩) = .ok f
  rw [Vector3.normalize_of_dot_self h.zz, Outcome.ok_bind, hy]
  rfl

/-- Where a motion moves the origin and the first two axes of the world. -/
def onto (m : Matrix4 ℝ) : Frame ℝ := ⟨m.position, m.columnX, m.columnY⟩

/-- The frame onto which the matrix of a frame moves the world is that frame. -/
theorem onto_toMatrix (f : Frame ℝ) : onto f.toMatrix = f := rfl

/-- A rigid motion moves the world onto a frame with perpendicular unit axes. -/
theorem orthonormal_onto {m : Matrix4 ℝ} (hm : m.Rigid) : (onto m).Orthonormal := by
  obtain ⟨hxx, hyy, hxy, -⟩ := hm.columns
  exact ⟨hxx, hyy, hxy⟩

/-- A rigid motion is the one onto its frame. -/
theorem toMatrix_onto {m : Matrix4 ℝ} (hm : m.Rigid) : (onto m).toMatrix = m := by
  obtain ⟨-, -, -, hz⟩ := hm.columns
  refine Matrix4.ext_of_turn (orthonormal_onto hm).rigid.bottom hm.bottom (fun v => ?_) rfl
  change (Matrix4.ofColumns m.columnX m.columnY (m.columnX.cross m.columnY) m.position).turn v = _
  rw [Matrix4.ofColumns_turn, ← hz]
  ext <;> rfl

/-- The constructor of frames changes nothing about a rigid motion. -/
theorem ofMatrix_of_rigid {m : Matrix4 ℝ} (hm : m.Rigid) : ofMatrix m = .ok (onto m) :=
  ofAxes_of_orthonormal (orthonormal_onto hm)

/-- The frame of a rigid motion is the one that the motion moves the world onto. -/
theorem ofMatrix_eq_ok_iff {m : Matrix4 ℝ} (hm : m.Rigid) {f : Frame ℝ} (hf : f.Orthonormal) :
    ofMatrix m = .ok f ↔ m = f.toMatrix := by
  constructor
  · intro h
    obtain rfl := Except.ok.inj ((ofMatrix_of_rigid hm).symm.trans h)
    rw [toMatrix_onto hm]
  · rintro rfl
    exact ofAxes_of_orthonormal hf

end Frame

end RobotProgram
