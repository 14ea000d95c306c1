import RobotProgram.Fault
import RobotProgram.Scalar

/-!
# Vectors of space

Sums, products and lengths, and two ways to scale a vector to unit length: by the rule of frame
axes, which refuses a length of zero as a division, and by the rule of directions, which names it.
-/

namespace RobotProgram

open Scalar (nat)

/-- A vector, or a point, of space. -/
@[ext]
structure Vector3 (α : Type) where
  x : α
  y : α
  z : α
deriving DecidableEq

namespace Vector3

variable {α : Type} [Scalar α]

instance : Add (Vector3 α) := ⟨fun a b => ⟨a.x + b.x, a.y + b.y, a.z + b.z⟩⟩

instance : Sub (Vector3 α) := ⟨fun a b => ⟨a.x - b.x, a.y - b.y, a.z - b.z⟩⟩

instance : Neg (Vector3 α) := ⟨fun a => ⟨-a.x, -a.y, -a.z⟩⟩

/-- A vector with every coordinate multiplied. -/
def scale (k : α) (a : Vector3 α) : Vector3 α := ⟨a.x * k, a.y * k, a.z * k⟩

/-- A vector with every coordinate divided. -/
def divide (a : Vector3 α) (k : α) : Vector3 α := ⟨a.x / k, a.y / k, a.z / k⟩

/-- The scalar product. -/
def dot (a b : Vector3 α) : α := a.x * b.x + a.y * b.y + a.z * b.z

/-- The vector product. -/
def cross (a b : Vector3 α) : Vector3 α :=
  ⟨a.y * b.z - a.z * b.y, a.z * b.x - a.x * b.z, a.x * b.y - a.y * b.x⟩

/-- The length of a vector. -/
def norm (a : Vector3 α) : α := Scalar.sqrt (a.dot a)

/-- The coordinates in order. -/
def toList (a : Vector3 α) : List α := [a.x, a.y, a.z]

/-- The origin. -/
def zero : Vector3 α := ⟨nat 0, nat 0, nat 0⟩

/-- The first axis of the world. -/
def unitX : Vector3 α := ⟨nat 1, nat 0, nat 0⟩

/-- The second axis of the world. -/
def unitY : Vector3 α := ⟨nat 0, nat 1, nat 0⟩

/-- The third axis of the world. -/
def unitZ : Vector3 α := ⟨nat 0, nat 0, nat 1⟩

/-- Whether the square of a finite scalar is too large. -/
def squareOverflows (x : α) : Bool := Scalar.finite x && !Scalar.finite (x * x)

/-- A frame axis scaled to unit length. -/
def normalize (a : Vector3 α) : Outcome (Vector3 α) :=
  if a.toList.any squareOverflows then .error .overflow
  else if Scalar.eq a.norm (nat 0) then .error .divisionByZero
  else .ok (a.divide a.norm)

/-- A direction scaled to unit length. -/
def unit (a : Vector3 α) : Outcome (Vector3 α) :=
  if Scalar.eq a.norm (nat 0) then .error .zeroVector else .ok (a.divide a.norm)

/-- The part of a vector perpendicular to a unit axis. -/
def reject (a axis : Vector3 α) : Vector3 α := a - axis.scale (axis.dot a)

end Vector3

/-- A list of scalars, the coordinates of a vector of any dimension, scaled to unit length. -/
def unitList {α : Type} [Scalar α] (xs : List α) : Outcome (List α) :=
  let norm := Scalar.sqrt (xs.foldl (fun sum x => sum + x * x) (nat 0))
  if Scalar.eq norm (nat 0) then .error .zeroVector else .ok (xs.map (· / norm))

end RobotProgram
