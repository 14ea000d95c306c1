import RobotProgram.Scalar

/-!
# Linear systems

Gaussian elimination with the largest pivot. A row holds the coefficients of the unknowns and then
the right-hand side.
-/

namespace RobotProgram.Kinematics

open Scalar (nat)

variable {α : Type} [Scalar α]

/-- The size of the first coefficient of a row. -/
def leadSize : List α → α
  | [] => nat 0
  | x :: _ => Scalar.abs x

/-- The row with the largest first coefficient, the first of several, and the other rows. -/
def takePivot : List α → List (List α) → List α × List (List α)
  | best, [] => (best, [])
  | best, row :: rows =>
    if Scalar.lt (leadSize best) (leadSize row) then
      let (pivot, others) := takePivot row rows
      (pivot, best :: others)
    else
      let (pivot, others) := takePivot best rows
      (pivot, row :: others)

/-- A row without its first unknown, which the pivot row expresses by the others. -/
def eliminate (lead : α) (pivot : List α) : List α → List α
  | [] => []
  | x :: xs => List.zipWith (fun a b => a - x / lead * b) xs pivot

/-- The value of the first unknown when the others are known. -/
def substitute (lead : α) (pivot solution : List α) : α :=
  let known := List.zipWith (· * ·) pivot solution
  known.foldl (· - ·) (pivot.getLast?.getD (nat 0)) / lead

/-- The solution of `n` equations, unless they are dependent. -/
def solve? : Nat → List (List α) → Option (List α)
  | 0, _ => some []
  | _ + 1, [] => none
  | n + 1, row :: rows =>
    match takePivot row rows with
    | ([], _) => none
    | (lead :: pivot, others) =>
      if Scalar.eq lead (nat 0) then none
      else
        (solve? n (others.map (eliminate lead pivot))).map fun solution =>
          substitute lead pivot solution :: solution

end RobotProgram.Kinematics
