import RobotProgram.Number.Binary

/-!
# Scalars

The arithmetic that geometry and kinematics need, as an interface: programs run on floating-point
numbers, and the same definitions can be read over the real numbers. Constants are written as
ratios of natural numbers, so they mean the same for both.
-/

namespace RobotProgram

/-- Numbers with the operations of plane and solid geometry. -/
class Scalar (α : Type) extends Add α, Sub α, Mul α, Div α, Neg α where
  /-- A natural number. -/
  nat : Nat → α
  sqrt : α → α
  sin : α → α
  cos : α → α
  acos : α → α
  /-- The angle of the point `(x, y)`, given as `atan2 y x`. -/
  atan2 : α → α → α
  /-- The length of a half turn. -/
  pi : α
  lt : α → α → Bool
  le : α → α → Bool
  eq : α → α → Bool
  /-- The remainder with the sign of the divisor. -/
  floorMod : α → α → α
  /-- Whether a scalar is a number of finite size. -/
  finite : α → Bool
  /-- Whether a scalar is infinite. -/
  infinite : α → Bool

namespace Scalar

variable {α : Type} [Scalar α]

/-- The ratio of two natural numbers. -/
def ratio (p q : Nat) : α := nat p / nat q

/-- The magnitude of a scalar. -/
def abs (x : α) : α := if lt x (nat 0) then -x else x

/-- The first of two scalars unless the second is smaller. -/
def least (x y : α) : α := if lt y x then y else x

/-- The first of two scalars unless the second is greater. -/
def greatest (x y : α) : α := if lt x y then y else x

/-- An angle given in degrees, in radians. -/
def radians (x : α) : α := x * (pi / nat 180)

/-- An angle given in radians, in degrees. -/
def degrees (x : α) : α := x * (nat 180 / pi)

/-- An angle in degrees moved into the interval from -180, included, to 180; a zero has no sign. -/
def wrapDegrees (x : α) : α :=
  let wrapped := floorMod (x + nat 180) (nat 360) - nat 180
  if eq wrapped (nat 0) then nat 0 else wrapped

end Scalar

/-- Floating-point numbers are scalars. -/
instance : Scalar Float where
  nat := Float.ofNat
  sqrt := Float.sqrt
  sin := Float.sin
  cos := Float.cos
  acos := Float.acos
  atan2 := Float.atan2
  pi := 3.141592653589793
  lt x y := decide (x < y)
  le x y := decide (x ≤ y)
  eq x y := x == y
  floorMod := Number.floorMod
  finite := Float.isFinite
  infinite := Float.isInf

end RobotProgram
