import RobotProgram.Geometry.Frame
import RobotProgram.Interval

/-!
# External mechanisms

A mechanism moves along or about the third axis of its frame. A track carries the robot and is
measured in millimetres; a positioner turns the workpiece and is measured in degrees.
-/

namespace RobotProgram

open Scalar (nat)

/-- What a mechanism does. -/
inductive MechanismKind where
  | linear
  | rotational
deriving DecidableEq, Repr

/-- The name of a kind of mechanism. -/
def MechanismKind.name : MechanismKind → String
  | .linear => "linear"
  | .rotational => "rotational"

/-- An external mechanism. -/
structure Mechanism (α : Type) where
  name : Value
  kind : MechanismKind
  frame : Frame α
  limits : Interval α
  /-- The slot of the mechanism in an external joint position. -/
  number : Int
  /-- The name of the axis in messages. -/
  logic : Value

/-- The letter of a slot, or a dash when the number is no slot. -/
def slotLetter (number : Int) : Value :=
  if 0 ≤ number then
    match ["a", "b", "c", "d", "e", "f"][number.toNat]? with
    | some letter => .text letter
    | none => .text "-"
  else .text "-"

/-- The name of the axis: as given unless that is empty, and by default the letter of the slot. -/
def axisLogic (number : Int) : Value → Value
  | .null => slotLetter number
  | v => if v.truthy then v else .text "-"

namespace Mechanism

variable {α : Type} [Scalar α]

/-- A point on the axis. -/
def origin (m : Mechanism α) : Vector3 α := m.frame.point

/-- The direction of the axis. -/
def direction (m : Mechanism α) : Outcome (Vector3 α) := m.frame.zaxis.unit

/-- The signed distance of a point along a track, at which the robot is level with the point. -/
def trackPosition (m : Mechanism α) (p : Vector3 α) : Outcome α := do
  return (p - m.origin).dot (← m.direction)

/-- The angle by which a positioner turns a point onto its first axis; zero on the axis itself. -/
def turnPosition (m : Mechanism α) (p : Vector3 α) : Outcome α := do
  let v := p - m.origin
  let x := v.dot (← m.frame.xaxis.unit)
  let y := v.dot (← m.frame.yaxis.unit)
  let tiny : α := Scalar.ratio 1 1000000000000
  if Scalar.lt (Scalar.abs x) tiny && Scalar.lt (Scalar.abs y) tiny then return nat 0
  else return -Scalar.degrees (Scalar.atan2 y x)

/-- The value that serves a target at a point. -/
def position (m : Mechanism α) (p : Vector3 α) : Outcome α :=
  match m.kind with
  | .linear => m.trackPosition p
  | .rotational => m.turnPosition p

/-- The motion of what the mechanism carries when it moves from zero to a value. -/
def motion (m : Mechanism α) (value : α) : Outcome (Matrix4 α) :=
  match m.kind with
  | .linear => do return .displacement ((← m.direction).scale value)
  | .rotational => do
    let direction ← m.direction
    Matrix4.rotation? direction (Scalar.radians value) m.origin

/-- Whether the mechanism reaches a value. -/
def reaches (m : Mechanism α) (value : α) : Bool := m.limits.includes value

/-- A mechanism as data. -/
def literal (m : Mechanism α) : String :=
  (match m.kind with
    | .linear => "ExternalLinearAxis"
    | .rotational => "ExternalRotationalAxis") ++
    "(name='" ++ m.name.toText ++ "', number=" ++ toString m.number ++
    ", logic='" ++ m.logic.toText ++ "')"

end Mechanism

end RobotProgram
