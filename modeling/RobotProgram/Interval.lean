import RobotProgram.Scalar
import RobotProgram.Value.Convert

/-!
# Intervals

A closed interval whose bounds may be given in either order.
-/

namespace RobotProgram

/-- A closed interval between two bounds. -/
@[ext]
structure Interval (α : Type) where
  start : α
  stop : α

namespace Interval

variable {α : Type} [Scalar α]

/-- The lower bound. -/
def min (i : Interval α) : α := Scalar.least i.start i.stop

/-- The upper bound. -/
def max (i : Interval α) : α := Scalar.greatest i.start i.stop

/-- The distance of the bounds. -/
def length (i : Interval α) : α := i.max - i.min

/-- Whether a scalar lies between the bounds, which belong to the interval. -/
def includes (i : Interval α) (x : α) : Bool := Scalar.le i.min x && Scalar.le x i.max

/-- The interval that holds only zero. -/
def zero : Interval α := ⟨Scalar.nat 0, Scalar.nat 0⟩

end Interval

/-- The interval between the two parts of a value. -/
def Interval.ofValue (v : Value) : Outcome (Interval Float) := do
  match ← v.parts with
  | [a, b] =>
    match v with
    | .map _ => .error (.missingKey (.int 0))
    | _ => return ⟨← a.number, ← b.number⟩
  | ps => .error (.intervalBounds ps)

end RobotProgram
