import RobotProgram.Geometry.Matrix4

/-!
# Rotation subproblems

Three problems about rotations that the closed form of the inverse kinematics is built from: turn a
point onto another, turn a vector about two axes onto another, and turn a point to a given distance
from another.
-/

namespace RobotProgram.Kinematics

open Scalar (nat)

variable {α : Type} [Scalar α]

/-- The length below which a vector has no direction. -/
def tiny : α := Scalar.ratio 1 1000000000

/-- The angle about the line through `point` along `axis` that turns `p` onto `q`. -/
def turnOnto (p q axis point : Vector3 α) : α :=
  let u := (p - point).reject axis
  let v := (q - point).reject axis
  if Scalar.lt u.norm tiny || Scalar.lt v.norm tiny then nat 0
  else Scalar.atan2 (axis.dot (u.cross v)) (u.dot v)

/-- The pairs of angles that turn `a` onto `d`, first about `w2` and then about `w1`, both through
the origin. There are two, or none when the axes are parallel or `d` is out of reach. -/
def turnTwice (a d w1 w2 : Vector3 α) : List (α × α) :=
  let c := w1.dot w2
  let denominator := c * c - nat 1
  if Scalar.lt (Scalar.abs denominator) tiny then []
  else
    let alpha := (c * w2.dot a - w1.dot d) / denominator
    let beta := (c * w1.dot d - w2.dot a) / denominator
    let normal := w1.cross w2
    let square :=
      (a.dot a - alpha * alpha - beta * beta - nat 2 * alpha * beta * c) / normal.dot normal
    if Scalar.lt square (-tiny) then []
    else
      let gamma := Scalar.sqrt (Scalar.greatest square (nat 0))
      [gamma, -gamma].map fun g =>
        let middle := w1.scale alpha + w2.scale beta + normal.scale g
        (turnOnto middle d w1 .zero, turnOnto a middle w2 .zero)

/-- The angles about the line through `point` along `axis` that put `p` at a distance from `q`:
two, or none when no rotation does. -/
def turnToDistance (p q : Vector3 α) (distance : α) (axis point : Vector3 α) : List α :=
  let u := (p - point).reject axis
  let v := (q - point).reject axis
  if Scalar.lt u.norm tiny || Scalar.lt v.norm tiny then []
  else
    let along := axis.dot (p - q)
    let planar := distance * distance - along * along
    let middle := Scalar.atan2 (axis.dot (u.cross v)) (u.dot v)
    let cosine := (u.norm * u.norm + v.norm * v.norm - planar) / (nat 2 * u.norm * v.norm)
    if Scalar.lt (nat 1 + tiny) (Scalar.abs cosine) then []
    else
      let spread :=
        Scalar.acos (Scalar.least (nat 1) (Scalar.greatest (-(nat 1)) cosine))
      [middle + spread, middle - spread]

/-- The size of an angle in degrees, whole turns left out. -/
def wrappedSize (angle : α) : α := Scalar.abs (Scalar.wrapDegrees (Scalar.degrees angle))

/-- The item with the smallest key, the first of several. -/
def smallestBy {β : Type} (key : β → α) (first : β) (rest : List β) : β :=
  rest.foldl (fun best x => if Scalar.lt (key x) (key best) then x else best) first

end RobotProgram.Kinematics
