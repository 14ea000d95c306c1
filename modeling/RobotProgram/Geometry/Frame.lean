import RobotProgram.Geometry.Matrix4
import RobotProgram.Value.Convert

/-!
# Frames

A frame is a point with two perpendicular unit axes; the third axis is their vector product. Frames
are built from any two axes that are not parallel, composed as motions, and written as quaternions.
-/

namespace RobotProgram

open Scalar (nat)

/-- A point with two axes. -/
@[ext]
structure Frame (α : Type) where
  point : Vector3 α
  xaxis : Vector3 α
  yaxis : Vector3 α
deriving DecidableEq

namespace Frame

variable {α : Type} [Scalar α]

/-- The frame of the world. -/
def world : Frame α := ⟨.zero, .unitX, .unitY⟩

/-- The third axis. -/
def zaxis (f : Frame α) : Vector3 α := f.xaxis.cross f.yaxis

/-- The frame at a point with the unit axis `x` and the direction perpendicular to it in the half
plane of `y`. -/
def ofUnitAxis (point x y : Vector3 α) : Outcome (Frame α) := do
  let y ← y.normalize
  let z ← (x.cross y).normalize
  return ⟨point, x, z.cross x⟩

/-- The frame at a point with the direction of `x` and, in the half plane of `y`, the direction
perpendicular to it. -/
def ofAxes (point x y : Vector3 α) : Outcome (Frame α) := do
  ofUnitAxis point (← x.normalize) y

/-- A frame built anew from its parts. -/
def rebuild (f : Frame α) : Outcome (Frame α) := ofAxes f.point f.xaxis f.yaxis

/-- The motion from the world onto a frame. -/
def toMatrix (f : Frame α) : Matrix4 α := .ofColumns f.xaxis f.yaxis f.zaxis f.point

/-- The frame onto which a motion moves the world. -/
def ofMatrix (m : Matrix4 α) : Outcome (Frame α) := ofAxes m.position m.columnX m.columnY

/-- A frame given relative to a parent, in the coordinates of the parent. -/
def compose (parent child : Frame α) : Outcome (Frame α) :=
  ofMatrix (parent.toMatrix * child.toMatrix)

/-- A frame moved along with `source` when that moves onto `target`. -/
def reattach (f source target : Frame α) : Outcome (Frame α) :=
  ofMatrix (target.toMatrix * source.toMatrix.inverse * f.toMatrix)

/-- The frame at a point with a given third axis. Its first axis is perpendicular to the third axis
of the world, or to the first when the given axis is nearly vertical. -/
def ofAxis (point direction : Vector3 α) : Outcome (Frame α) := do
  let z ← direction.unit
  let reference : Vector3 α :=
    if Scalar.lt (Scalar.abs z.z) (Scalar.ratio 9 10) then .unitZ else .unitX
  let x ← (reference.cross z).unit
  ofAxes point x (z.cross x)

/-- A rotation as a quaternion. -/
@[ext]
structure Quaternion (α : Type) where
  w : α
  x : α
  y : α
  z : α

/-- The components in order. -/
def Quaternion.toList (q : Quaternion α) : List α := [q.w, q.x, q.y, q.z]

/-- The opposite quaternion, which is the same rotation. -/
def Quaternion.opposite (q : Quaternion α) : Quaternion α := ⟨-q.w, -q.x, -q.y, -q.z⟩

/-- The quaternion of a rotation matrix, from its trace when that is positive and else from its
largest diagonal entry. -/
def quaternionOf (m : Matrix4 α) : Quaternion α :=
  let m00 := m.r1.a
  let m11 := m.r2.b
  let m22 := m.r3.c
  let t := m00 + m11 + m22
  if Scalar.lt (nat 0) t then
    let s := Scalar.ratio 1 2 / Scalar.sqrt (t + nat 1)
    ⟨Scalar.ratio 1 4 / s, (m.r3.b - m.r2.c) * s, (m.r1.c - m.r3.a) * s, (m.r2.a - m.r1.b) * s⟩
  else if Scalar.lt m11 m00 && Scalar.lt m22 m00 then
    let s := nat 2 * Scalar.sqrt (nat 1 + m00 - m11 - m22)
    ⟨(m.r3.b - m.r2.c) / s, s / nat 4, (m.r1.b + m.r2.a) / s, (m.r1.c + m.r3.a) / s⟩
  else if Scalar.lt m22 m11 then
    let s := nat 2 * Scalar.sqrt (nat 1 + m11 - m00 - m22)
    ⟨(m.r1.c - m.r3.a) / s, (m.r1.b + m.r2.a) / s, s / nat 4, (m.r2.c + m.r3.b) / s⟩
  else
    let s := nat 2 * Scalar.sqrt (nat 1 + m22 - m00 - m11)
    ⟨(m.r2.a - m.r1.b) / s, (m.r1.c + m.r3.a) / s, (m.r2.c + m.r3.b) / s, s / nat 4⟩

/-- The orientation of a frame as the quaternion whose first component is not negative. -/
def quaternion (f : Frame α) : Quaternion α :=
  let q := quaternionOf f.toMatrix
  if Scalar.lt q.w (nat 0) then q.opposite else q

end Frame

/-! ### Frames as plain data -/

/-- A vector given by two to four coordinates: a missing third is zero, a fourth is ignored. -/
def Vector3.ofValue (v : Value) : Outcome (Vector3 Float) := do
  match ← v.parts with
  | [x, y] => return ⟨← x.number, ← y.number, 0.0⟩
  | [x, y, z] | [x, y, z, _] => return ⟨← x.number, ← y.number, ← z.number⟩
  | _ => .error .wrongType

/-- A vector as a list of numbers. -/
def Vector3.toValue (a : Vector3 Float) : Value :=
  .list (a.toList.map .float)

/-- An axis of a frame, which may be left out. -/
def axisOfValue (default : Vector3 Float) : Option Value → Outcome (Vector3 Float)
  | none | some .null => .ok default
  | some v => Vector3.ofValue v

/-- A frame as a record. -/
def Frame.toValue (f : Frame Float) : Value :=
  .record [("point", f.point.toValue), ("xaxis", f.xaxis.toValue), ("yaxis", f.yaxis.toValue)]

/-- The frame of a record; what is left out is that of the world. -/
def Frame.ofValue (v : Value) : Outcome (Frame Float) :=
  if !v.truthy then .ok .world
  else do
    let es ← v.entries
    let point ← match field? "point" es with
      | none => pure .zero
      | some p => Vector3.ofValue p
    let x ← axisOfValue .unitX (field? "xaxis" es)
    let x ← x.normalize
    let y ← axisOfValue .unitY (field? "yaxis" es)
    Frame.ofUnitAxis point x y

end RobotProgram
