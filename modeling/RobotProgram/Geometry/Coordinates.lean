import RobotProgram.Geometry.Vector3
import RobotProgram.Value.Convert

/-!
# Coordinates as plain data

Lists of numbers where vectors and points are computed with: nothing counts as no number, a single
coordinate of a point stands for all three, and of a vector the first three count.
-/

namespace RobotProgram.Coordinates

/-- A coordinate. -/
def number : Value → Outcome Float
  | .null => .ok (0.0 / 0.0)
  | v => v.number

/-- The coordinates of a list. -/
def ofValue (v : Value) : Outcome (List Float) := do (← v.parts).mapM number

/-- The vector of the first three coordinates. -/
def vector : List Float → Outcome (Vector3 Float)
  | x :: y :: z :: _ => .ok ⟨x, y, z⟩
  | _ => .error .noSuchIndex

/-- The vector of a list of numbers, which reads no text. -/
def scalars (v : Value) : Outcome (Vector3 Float) := do
  vector (← (← v.parts).mapM Value.scalar)

/-- The point of a number or of a list of one or three. -/
def point (v : Value) : Outcome (Vector3 Float) := do
  match v with
  | .list _ =>
    match ← ofValue v with
    | [x] => return ⟨x, x, x⟩
    | [x, y, z] => return ⟨x, y, z⟩
    | xs => .error (.pointSize xs.length)
  | .map _ => .error .wrongType
  | v =>
    let x ← number v
    return ⟨x, x, x⟩

end RobotProgram.Coordinates
