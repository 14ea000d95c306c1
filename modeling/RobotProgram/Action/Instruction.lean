import RobotProgram.Action.Speed
import RobotProgram.Action.Target

/-!
# Instructions

Waits, digital outputs, and movements without their target.
-/

namespace RobotProgram

/-- A wait of some seconds, perhaps only once the robot has settled. -/
structure Wait where
  duration : Float
  inPosition : Bool

namespace Wait

/-- The record type. -/
def tag : String := "WaitTime"

/-- The kind in messages. -/
def kindText : String := "Wait Time"

/-- Whether the duration is not negative. -/
def isValid (w : Wait) : Bool := decide (0.0 ≤ w.duration)

/-- The wait in messages. -/
def text (w : Wait) : String :=
  if w.isValid then kindText ++ " (" ++ Number.render Number.timePlaces w.duration ++ " sec.)"
  else "Invalid " ++ kindText

/-- The instruction of the wait. -/
def instruction (w : Wait) : String :=
  "WaitTime " ++ (if w.inPosition then "\\InPos, " else "") ++
    Number.render Number.timePlaces w.duration ++ ";"

/-- The record of the wait. -/
def toRecord (w : Wait) : Value :=
  Record.make tag [("duration", .float w.duration), ("in_position", .bool w.inPosition)]

/-- The wait of a record. -/
def ofRecord (v : Value) : Outcome Wait := do
  let es ← v.entries
  let version ← Record.version tag es
  let duration ← (← Record.required tag "duration" es).number
  let inPosition :=
    decide (Record.inPositionVersion < version) && (fieldD "in_position" es (.bool false)).truthy
  return ⟨duration, inPosition⟩

end Wait

/-- A digital output that is set or reset. -/
structure Output where
  name : Value
  active : Bool

namespace Output

/-- The record type. -/
def tag : String := "DigitalOutput"

/-- The kind in messages. -/
def kindText : String := "Digital Output"

/-- Whether the output has a name. -/
def isValid (o : Output) : Bool := o.name.truthy

/-- The state of the signal. -/
def state (o : Output) : String := if o.active then "1" else "0"

/-- The output in messages. -/
def text (o : Output) : String :=
  if o.isValid then
    "Set " ++ kindText ++ " (" ++ o.name.toText ++ "\\" ++ (if o.active then "true" else "false") ++
      ")"
  else "Invalid " ++ kindText

/-- The instruction of the output. -/
def instruction (o : Output) : String := "SetDO " ++ o.name.toText ++ ", " ++ o.state ++ ";"

/-- The record of the output. -/
def toRecord (o : Output) : Value :=
  Record.make tag [("name", o.name), ("is_active", .bool o.active)]

/-- The output of a record. -/
def ofRecord (v : Value) : Outcome Output := do
  let es ← v.entries
  let _ ← Record.version tag es
  return ⟨fieldD "name" es (.text ""), (fieldD "is_active" es (.bool false)).truthy⟩

end Output

/-- The families of move instructions. -/
inductive MoveKind where
  | absoluteJoint
  | linear
  | joint
deriving DecidableEq, Repr

namespace MoveKind

/-- The number of a family. -/
def number : MoveKind → Nat
  | absoluteJoint => 0
  | linear => 1
  | joint => 2

/-- The name of a family. -/
def word : MoveKind → String
  | absoluteJoint => "ABSOLUTE_JOINT"
  | linear => "LINEAR"
  | joint => "JOINT"

/-- The instruction of a family. -/
def instruction : MoveKind → String
  | absoluteJoint => "MoveAbsJ"
  | linear => "MoveL"
  | joint => "MoveJ"

/-- The families in order. -/
def all : List MoveKind := [absoluteJoint, linear, joint]

end MoveKind

/-- The type of a movement: a family, or something else that moves nothing. -/
inductive MoveType where
  | known (kind : MoveKind)
  | other (v : Value)

namespace MoveType

/-- The type of a value: a name in either case, or a number; numbers of no family are kept. -/
def ofValue : Value → Outcome MoveType
  | .text s =>
    let word := Text.upper s
    match MoveKind.all.find? fun k => k.word == word with
    | some k => .ok (known k)
    | none => .error (.missingKey (.text word))
  | v => do
    let n ← v.integer
    match MoveKind.all.find? fun k => (k.number : Int) == n with
    | some k => return known k
    | none => return other (.int n)

/-- The type as a value. -/
def toValue : MoveType → Value
  | known k => .int k.number
  | other v => v

end MoveType

/-- A movement without its target. -/
structure Movement where
  speed : Option Speed
  kind : MoveType
  /-- The zone around the target; a negative one stops exactly there. -/
  precision : Value
  /-- A tool other than the robot's. -/
  tool : Option (Tool Float)
  workObject : WorkObject
  /-- An output that is set on arrival. -/
  output : Option Output
  /-- The pose of a robot target in world coordinates. -/
  globalFrame : Option (Frame Float)

namespace Movement

/-- The record type. -/
def tag : String := "Movement"

/-- The kind in messages. -/
def kindText : String := "Movement"

/-- Whether a valid output is set on arrival. -/
def hasOutput (m : Movement) : Bool := m.output.any Output.isValid

/-- The zone in program text. -/
def zone (m : Movement) : Outcome String := do
  if ← m.precision.less (.int 0) then return "fine"
  else return "z" ++ m.precision.toText

/-- The tool in program text: that of the movement if it has a name, else the ambient one, else
that of the robot. -/
def toolName (m : Movement) (robot : Robot Float) (ambient : Value) : Value :=
  let own := m.tool.elim .null (·.name)
  if own.truthy then own else if ambient.truthy then ambient else robot.tool.name

end Movement

end RobotProgram
