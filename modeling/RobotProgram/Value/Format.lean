import RobotProgram.Number.Fixed
import RobotProgram.Value.Convert

/-!
# Values in program text

A value is read as a number and rendered with a number of decimals that is itself given as a value.
-/

namespace RobotProgram.Value

/-- The number of decimals that a value gives. -/
def places : Value → Outcome Nat
  | .int n => if n < 0 then .error .missingPlaces else .ok n.toNat
  | _ => .error .wrongType

/-- A number in program text. -/
def format (digits v : Value) : Outcome String := do
  let x ← v.number
  return Number.render (← digits.places) x

/-- A bracketed list of numbers in program text. -/
def formatList (digits v : Value) : Outcome String := do
  return "[" ++ String.intercalate ", " (← (← v.parts).mapM digits.format) ++ "]"

end RobotProgram.Value
