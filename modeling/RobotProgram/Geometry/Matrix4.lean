import RobotProgram.Geometry.Vector3

/-!
# Motions of space

A motion is the matrix of its homogeneous coordinates. Products are written out over all sixteen
entries, so that an entry that is not a number spreads through a product.
-/

namespace RobotProgram

open Scalar (nat)

/-- A row of a matrix. -/
@[ext]
structure Row4 (α : Type) where
  a : α
  b : α
  c : α
  d : α

/-- A matrix of four rows. -/
@[ext]
structure Matrix4 (α : Type) where
  r1 : Row4 α
  r2 : Row4 α
  r3 : Row4 α
  r4 : Row4 α

namespace Matrix4

variable {α : Type} [Scalar α]

/-- The entries, row by row. -/
def toLists (m : Matrix4 α) : List (List α) :=
  [m.r1, m.r2, m.r3, m.r4].map fun r => [r.a, r.b, r.c, r.d]

/-- A row times a matrix. -/
def rowMul (r : Row4 α) (n : Matrix4 α) : Row4 α where
  a := r.a * n.r1.a + r.b * n.r2.a + r.c * n.r3.a + r.d * n.r4.a
  b := r.a * n.r1.b + r.b * n.r2.b + r.c * n.r3.b + r.d * n.r4.b
  c := r.a * n.r1.c + r.b * n.r2.c + r.c * n.r3.c + r.d * n.r4.c
  d := r.a * n.r1.d + r.b * n.r2.d + r.c * n.r3.d + r.d * n.r4.d

instance : Mul (Matrix4 α) :=
  ⟨fun m n => ⟨rowMul m.r1 n, rowMul m.r2 n, rowMul m.r3 n, rowMul m.r4 n⟩⟩

/-- The matrix with three columns of directions and a column with a point. -/
def ofColumns (x y z p : Vector3 α) : Matrix4 α where
  r1 := ⟨x.x, y.x, z.x, p.x⟩
  r2 := ⟨x.y, y.y, z.y, p.y⟩
  r3 := ⟨x.z, y.z, z.z, p.z⟩
  r4 := ⟨nat 0, nat 0, nat 0, nat 1⟩

/-- The motion that moves nothing. -/
def one : Matrix4 α := ofColumns .unitX .unitY .unitZ .zero

/-- The first column of directions. -/
def columnX (m : Matrix4 α) : Vector3 α := ⟨m.r1.a, m.r2.a, m.r3.a⟩

/-- The second column of directions. -/
def columnY (m : Matrix4 α) : Vector3 α := ⟨m.r1.b, m.r2.b, m.r3.b⟩

/-- The third column of directions. -/
def columnZ (m : Matrix4 α) : Vector3 α := ⟨m.r1.c, m.r2.c, m.r3.c⟩

/-- The image of the origin. -/
def position (m : Matrix4 α) : Vector3 α := ⟨m.r1.d, m.r2.d, m.r3.d⟩

/-- The image of a direction. -/
def turn (m : Matrix4 α) (v : Vector3 α) : Vector3 α where
  x := m.r1.a * v.x + m.r1.b * v.y + m.r1.c * v.z
  y := m.r2.a * v.x + m.r2.b * v.y + m.r2.c * v.z
  z := m.r3.a * v.x + m.r3.b * v.y + m.r3.c * v.z

/-- The image of a point. -/
def apply (m : Matrix4 α) (p : Vector3 α) : Vector3 α := m.turn p + m.position

/-- The motion by a vector. -/
def displacement (v : Vector3 α) : Matrix4 α := ofColumns .unitX .unitY .unitZ v

/-- The rotation part of a motion, undone. -/
def turnBack (m : Matrix4 α) : Matrix4 α :=
  ofColumns ⟨m.r1.a, m.r1.b, m.r1.c⟩ ⟨m.r2.a, m.r2.b, m.r2.c⟩ ⟨m.r3.a, m.r3.b, m.r3.c⟩ .zero

/-- The motion that undoes a rigid motion. -/
def inverse (m : Matrix4 α) : Matrix4 α :=
  displacement (-(m.turnBack.turn m.position)) * m.turnBack

/-- The rotation of directions about a unit axis: `cos · I + (1 - cos) · a aᵀ + sin · [a]ₓ`. -/
def spin (axis : Vector3 α) (angle : α) : Matrix4 α :=
  let c := Scalar.cos angle
  let s := Scalar.sin angle
  let k := nat 1 - c
  ofColumns
    ⟨c + axis.x * axis.x * k, axis.y * axis.x * k + axis.z * s, axis.z * axis.x * k - axis.y * s⟩
    ⟨axis.x * axis.y * k - axis.z * s, c + axis.y * axis.y * k, axis.z * axis.y * k + axis.x * s⟩
    ⟨axis.x * axis.z * k + axis.y * s, axis.y * axis.z * k - axis.x * s, c + axis.z * axis.z * k⟩
    .zero

/-- A direction scaled to unit length, or kept when its length is zero. -/
def axisDirection (axis : Vector3 α) : Vector3 α :=
  if Scalar.eq axis.norm (nat 0) then axis else axis.divide axis.norm

/-- The rotation about the line through `point` along `axis`, by the right-hand rule. -/
def rotation (axis : Vector3 α) (angle : α) (point : Vector3 α) : Matrix4 α :=
  let m := spin (axisDirection axis) angle
  ofColumns m.columnX m.columnY m.columnZ (point - m.turn point)

/-- The rotation about a line, refused when the angle is infinite. -/
def rotation? (axis : Vector3 α) (angle : α) (point : Vector3 α) : Outcome (Matrix4 α) :=
  if Scalar.infinite angle then .error .infiniteAngle else .ok (rotation axis angle point)

/-- Half the sum of the vector products of matching axes: the axis of the rotation from one
orientation to the other, with the sine of its angle as length. -/
def orientationError (current target : Matrix4 α) : Vector3 α :=
  (current.columnX.cross target.columnX + current.columnY.cross target.columnY +
    current.columnZ.cross target.columnZ).scale (Scalar.ratio 1 2)

end Matrix4

end RobotProgram
