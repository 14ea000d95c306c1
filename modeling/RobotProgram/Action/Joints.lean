import RobotProgram.Action.Record
import RobotProgram.Cell.Slots
import RobotProgram.Number.Fixed

/-!
# Joint positions

The six axis values of a robot, and the six external slots, as they are declared in a program. An
unnamed position is written in place wherever it is used.
-/

namespace RobotProgram

/-- The text of a thing: refused as invalid, or its kind with its name if it has one. -/
def namedText (kind : String) (valid : Bool) (name : Value) : String :=
  if !valid then "Invalid " ++ kind
  else if name.truthy then kind ++ " (" ++ name.toText ++ ")"
  else kind

/-- A declaration, empty without a name. -/
def declarationText (storage : Storage) (type : String) (name : Value) (value : String) : String :=
  if name.truthy then storage.word ++ " " ++ type ++ " " ++ name.toText ++ " := " ++ value ++ ";"
  else ""

/-- A name, or the value itself without one. -/
def referenceOf (name : Value) (value : String) : Value :=
  if name.truthy then name else .text value

/-- The place of an index among six, which counts from the end when it is negative. -/
def placeOf (v : Value) : Outcome (Fin 6) :=
  match v with
  | .int n => itemAt (List.finRange 6) n
  | .bool b => itemAt (List.finRange 6) (if b then 1 else 0)
  | _ => .error .wrongType

/-- Six items: the given ones, filled up with a default. -/
def fillSix {α : Type} (default : α) (xs : List α) : Vector α 6 :=
  Vector.ofFn fun i => xs[i.val]?.getD default

/-- The six axis values of a robot, in degrees. -/
structure RobotJoints where
  values : Vector Float 6
  name : Value
  storage : Storage

namespace RobotJoints

/-- The record type. -/
def tag : String := "RobotJointPosition"

/-- The kind in messages. -/
def kindText : String := "Robot Joint Position"

/-- The position with the given values; missing ones are zero. -/
def make (values name storage : Value) : Outcome RobotJoints := do
  let xs ← values.numbers
  if 6 < xs.length then .error (.tooManyAxes xs.length)
  else return ⟨fillSix 0.0 xs, name, ← Storage.ofValue storage⟩

/-- All axes at zero. -/
def zero : RobotJoints := ⟨Vector.replicate 6 0.0, .text "", .var⟩

/-- Whether every value is finite. -/
def isValid (p : RobotJoints) : Bool := p.values.all Float.isFinite

/-- The sum, without a name. -/
def add (p q : RobotJoints) : RobotJoints :=
  ⟨Vector.zipWith (· + ·) p.values q.values, .text "", .var⟩

/-- The difference, without a name. -/
def sub (p q : RobotJoints) : RobotJoints :=
  ⟨Vector.zipWith (· - ·) p.values q.values, .text "", .var⟩

/-- The multiple by a number, without a name. -/
def scale (p : RobotJoints) (factor : Value) : Outcome RobotJoints := do
  let k ← factor.scalar
  return ⟨p.values.map (· * k), .text "", .var⟩

/-- The value at an index. -/
def get (p : RobotJoints) (index : Value) : Outcome Float := do
  return p.values[← placeOf index]

/-- The position with another value at an index. -/
def set (p : RobotJoints) (index value : Value) : Outcome RobotJoints := do
  let x ← value.number
  let i ← placeOf index
  return { p with values := p.values.set i x }

/-- Whether two positions are equal. -/
def same (p q : RobotJoints) : Bool :=
  p.values.toList == q.values.toList && p.name.same q.name && p.storage == q.storage

/-- The values in program text. -/
def valueText (p : RobotJoints) : String := Number.renderList Number.positionPlaces p.values.toList

/-- How a program refers to the position. -/
def reference (p : RobotJoints) : Value := referenceOf p.name p.valueText

/-- The declaration of the position. -/
def declaration (p : RobotJoints) : String :=
  declarationText p.storage "robjoint" p.name p.valueText

/-- The position in messages. -/
def text (p : RobotJoints) : String := namedText kindText p.isValid p.name

/-- The values as data. -/
def valuesValue (p : RobotJoints) : Value := .list (p.values.toList.map .float)

/-- The position as data. -/
def literal (p : RobotJoints) : String :=
  "RobotJointPosition(" ++ p.valuesValue.literal ++ ", name=" ++ p.name.literal ++ ")"

/-- The record of the position. -/
def toRecord (p : RobotJoints) : Value :=
  Record.make tag [("name", p.name), ("variable_type", .text p.storage.word),
    ("values", p.valuesValue)]

/-- The position of a record. -/
def ofRecord (v : Value) : Outcome RobotJoints := do
  let es ← v.entries
  let _ ← Record.version tag es
  let values ← Record.required tag "values" es
  make values (fieldD "name" es (.text "")) (fieldD "variable_type" es (.text "VAR"))

end RobotJoints

/-- The values of the six external slots. No slot holds the number that stands for an undefined
one. -/
structure ExternalJoints where
  slots : Slots Float
  name : Value
  storage : Storage
  settled : ∀ s ∈ slots.toList, s.bind slotOf = s

/-- Taking a slot's value for undefined twice is the same as doing it once. -/
theorem bind_slotOf_bind_slotOf (s : Option Float) :
    (s.bind slotOf).bind slotOf = s.bind slotOf := by
  cases s with
  | none => rfl
  | some x =>
    by_cases h : Scalar.eq x (undefinedValue : Float) = true <;> simp [slotOf, h]

namespace ExternalJoints

/-- The record type. -/
def tag : String := "ExternalJointPosition"

/-- The kind in messages. -/
def kindText : String := "External Joint Position"

/-- The position with the given slots; a slot with the number for undefined is undefined. -/
def ofSlots (slots : Slots Float) (name : Value) (storage : Storage) : ExternalJoints where
  slots := slots.map fun s => s.bind slotOf
  name
  storage
  settled := by
    intro s hs
    simp only [Vector.toList_map, List.mem_map] at hs
    obtain ⟨t, _, rfl⟩ := hs
    exact bind_slotOf_bind_slotOf t

/-- The slot of a value; nothing is undefined. -/
def slotOfValue : Value → Outcome (Option Float)
  | .null => .ok none
  | v => slotOf <$> v.number

/-- The position with the given values; missing ones are undefined. -/
def make (values name storage : Value) : Outcome ExternalJoints := do
  let xs ← (← values.parts).mapM slotOfValue
  if 6 < xs.length then .error (.tooManySlots xs.length)
  else return ofSlots (fillSix none xs) name (← Storage.ofValue storage)

/-- All slots undefined. -/
def undefined : ExternalJoints := ofSlots noSlots (.text "") .var

/-- Whether every defined value is finite. -/
def isValid (p : ExternalJoints) : Bool := p.slots.all fun s => s.all Float.isFinite

/-- The value at an index. -/
def get (p : ExternalJoints) (index : Value) : Outcome (Option Float) := do
  return p.slots[← placeOf index]

/-- The position with another value at an index. -/
def set (p : ExternalJoints) (index value : Value) : Outcome ExternalJoints := do
  let x ← slotOfValue value
  let i ← placeOf index
  return ofSlots (p.slots.set i x) p.name p.storage

/-- Whether two positions are equal. -/
def same (p q : ExternalJoints) : Bool :=
  p.slots.toList == q.slots.toList && p.name.same q.name && p.storage == q.storage

/-- The slots in program text. -/
def valueText (p : ExternalJoints) : String :=
  "[" ++ String.intercalate ", " (p.slots.toList.map fun s =>
    s.elim undefinedText (Number.render Number.positionPlaces)) ++ "]"

/-- How a program refers to the position. -/
def reference (p : ExternalJoints) : Value := referenceOf p.name p.valueText

/-- The declaration of the position. -/
def declaration (p : ExternalJoints) : String :=
  declarationText p.storage "extjoint" p.name p.valueText

/-- The position in messages. -/
def text (p : ExternalJoints) : String := namedText kindText p.isValid p.name

/-- The slots as data, with a value that stands for undefined ones. -/
def valuesValue (p : ExternalJoints) (undefined : Value) : Value :=
  .list (p.slots.toList.map fun s => s.elim undefined .float)

/-- The slots as data, with the number that stands for undefined ones. -/
def storedValues (p : ExternalJoints) : Value := p.valuesValue (.float undefinedValue)

/-- The position as data. -/
def literal (p : ExternalJoints) : String :=
  "ExternalJointPosition(" ++ (p.valuesValue .null).literal ++ ", name=" ++ p.name.literal ++ ")"

/-- The record of the position. -/
def toRecord (p : ExternalJoints) : Value :=
  Record.make tag [("name", p.name), ("variable_type", .text p.storage.word),
    ("values", p.storedValues)]

/-- The position of a record. -/
def ofRecord (v : Value) : Outcome ExternalJoints := do
  let es ← v.entries
  let _ ← Record.version tag es
  let values ← Record.required tag "values" es
  make values (fieldD "name" es (.text "")) (fieldD "variable_type" es (.text "VAR"))

end ExternalJoints

end RobotProgram
