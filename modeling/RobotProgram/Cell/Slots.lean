import RobotProgram.Cell.Mechanism

/-!
# External slots

Six slots hold the values of the external mechanisms; a slot without a value is undefined. In data
and in program text an undefined slot is the number nine billion, which is therefore no value.
-/

namespace RobotProgram

/-- Values of the six external slots. -/
abbrev Slots (α : Type) := Vector (Option α) 6

/-- The number that stands for an undefined slot. -/
def undefinedValue {α : Type} [Scalar α] : α := Scalar.nat 9000000000

/-- The text that stands for an undefined slot. -/
def undefinedText : String := "9E9"

/-- The slot that holds a value, which is undefined when the value says so. -/
def slotOf {α : Type} [Scalar α] (x : α) : Option α :=
  if Scalar.eq x undefinedValue then none else some x

/-- Six undefined slots. -/
def noSlots {α : Type} : Slots α := Vector.replicate 6 none

/-- The value of a mechanism's slot. -/
def slotValue {α : Type} (slots : Slots α) (m : Mechanism α) : Option α :=
  (slots[m.number.toNat]?).join

end RobotProgram
