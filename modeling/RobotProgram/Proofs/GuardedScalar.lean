import RobotProgram.Proofs.RealScalar
import RobotProgram.Geometry.Frame

/-!
# Guarded scalars

Real division gives zero for a division by zero, so that a result says nothing about the divisions
on the way to it. Guarded numbers do: a division by zero, a root of a negative number or an angle
that no cosine has is no number, and neither is what arithmetic makes of it. So a guarded result
that is a number was computed without them. A comparison with what is no number does not hold.

Where the real operation has a result, the guarded one has the same (`of_add_of`, `of_div_of`,
`sqrt_of`).
-/

namespace RobotProgram

/-- A real number, or none where an operation has no result. -/
def Guarded : Type := Option ℝ

namespace Guarded

/-- A number that there is. -/
def of (x : ℝ) : Guarded := some x

/-- The real operations with their domains. -/
noncomputable instance : Scalar Guarded where
  add := Option.map₂ (· + ·)
  sub := Option.map₂ (· - ·)
  mul := Option.map₂ (· * ·)
  div a b :=
    Option.bind a fun x => Option.bind b fun y => if Scalar.eq y 0 then none else some (x / y)
  neg := Option.map (-·)
  nat n := some n
  sqrt a := Option.bind a fun x => if Scalar.lt x 0 then none else some √x
  sin := Option.map Real.sin
  cos := Option.map Real.cos
  acos a := Option.bind a fun x => if Scalar.lt 1 |x| then none else some (Real.arccos x)
  atan2 := Option.map₂ Scalar.atan2
  pi := some Real.pi
  lt a b := (Option.map₂ Scalar.lt a b).getD false
  le a b := (Option.map₂ Scalar.le a b).getD false
  eq a b := (Option.map₂ Scalar.eq a b).getD false
  floorMod a b :=
    Option.bind a fun x =>
      Option.bind b fun y => if Scalar.eq y 0 then none else some (Scalar.floorMod x y)
  finite := Option.isSome
  infinite _ := false

/-- Guarded numbers add as numbers do. -/
@[simp] theorem of_add_of (x y : ℝ) : of x + of y = of (x + y) := rfl

/-- Guarded numbers subtract as numbers do. -/
@[simp] theorem of_sub_of (x y : ℝ) : of x - of y = of (x - y) := rfl

/-- Guarded numbers multiply as numbers do. -/
@[simp] theorem of_mul_of (x y : ℝ) : of x * of y = of (x * y) := rfl

/-- A natural number is always there. -/
@[simp] theorem nat_eq (n : ℕ) : (Scalar.nat n : Guarded) = of n := rfl

/-- Guarded numbers compare as numbers do. -/
@[simp] theorem lt_of_of (x y : ℝ) : Scalar.lt (of x) (of y) = Scalar.lt x y := rfl

/-- A division by anything but zero is there. -/
theorem of_div_of (x : ℝ) {y : ℝ} (hy : y ≠ 0) : of x / of y = of (x / y) := by
  have hguard : ¬(Scalar.eq y 0 = true) := by simpa using hy
  exact if_neg hguard

/-- The root of a number that is not negative is there. -/
theorem sqrt_of {x : ℝ} (hx : 0 ≤ x) : Scalar.sqrt (of x) = of √x := by
  have hguard : ¬(Scalar.lt x 0 = true) := by simpa using hx
  exact if_neg hguard

/-- A ratio with a denominator is there. -/
theorem ratio_eq (p : ℕ) {q : ℕ} (hq : q ≠ 0) : (Scalar.ratio p q : Guarded) = of (p / q) := by
  have hcast : (q : ℝ) ≠ 0 := Nat.cast_ne_zero.mpr hq
  rw [Scalar.ratio, nat_eq, nat_eq, of_div_of _ hcast]

end Guarded

/-! ### Geometry with other scalars -/

section Maps

variable {α β : Type} (g : α → β)

/-- A vector with other scalars, coordinate by coordinate. -/
def Vector3.map (v : Vector3 α) : Vector3 β := ⟨g v.x, g v.y, g v.z⟩

/-- A row with other scalars. -/
def Row4.map (r : Row4 α) : Row4 β := ⟨g r.a, g r.b, g r.c, g r.d⟩

/-- A matrix with other scalars. -/
def Matrix4.map (m : Matrix4 α) : Matrix4 β := ⟨m.r1.map g, m.r2.map g, m.r3.map g, m.r4.map g⟩

/-- A frame with other scalars. -/
def Frame.map (f : Frame α) : Frame β := ⟨f.point.map g, f.xaxis.map g, f.yaxis.map g⟩

/-- A quaternion with other scalars. -/
def Frame.Quaternion.map (q : Frame.Quaternion α) : Frame.Quaternion β :=
  ⟨g q.w, g q.x, g q.y, g q.z⟩

end Maps

/-- The motion onto a frame takes no division. -/
theorem Frame.toMatrix_guarded (f : Frame ℝ) :
    (f.map Guarded.of).toMatrix = f.toMatrix.map Guarded.of := rfl

end RobotProgram
