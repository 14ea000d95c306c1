import RobotProgram.Action.Basic

/-!
# Reading actions

The type of a record chooses how it is read. What is wrong with a field is reported as a fault of
the record; a fault of a nested record passes unchanged.
-/

namespace RobotProgram

/-- Whether a cause is reported as a fault of the record that is read. -/
def Fault.spoilsRecord (f : Fault) : Bool :=
  match f.kind with
  | .type | .index | .value | .key => true
  | _ => false

/-- Reports the causes that spoil a record as faults of it. -/
def Record.wrap {α : Type} (action : String) : Outcome α → Outcome α
  | .ok a => .ok a
  | .error f => .error (if f.spoilsRecord then .undecodable action f else f)

namespace Action

/-- The movement of a record, given how its target is read. -/
def movementOfEntries (es : List (Atom × Value)) (target : Unit → Outcome Action) :
    Outcome Action := do
  let _ ← Record.version Movement.tag es
  let target ← target ()
  let speed ← Speed.ofRecord (← Record.required Movement.tag "speed_data" es)
  let tool ← Record.part? Tool.ofValue "robot_tool" es
  let workObject ← Record.part? WorkObject.ofValue "work_object" es
  let output ← Record.part? Output.ofRecord "digital_output" es
  moveTo (some target) (some speed) (fieldD "movement_type" es (.int 0))
    (fieldD "precision" es (.int 0)) tool workObject output

/-- The action of a record that is not a movement. -/
def simpleOfRecord? (tag : String) (v : Value) : Option (Outcome Action) :=
  if tag == RobotJoints.tag then some (robotJoints <$> RobotJoints.ofRecord v)
  else if tag == ExternalJoints.tag then some (externalJoints <$> ExternalJoints.ofRecord v)
  else if tag == JointTarget.tag then some (jointTarget <$> JointTarget.ofRecord v)
  else if tag == RobotTarget.tag then some (robotTarget <$> RobotTarget.ofRecord v)
  else if tag == Speed.tag then some (speed <$> Speed.ofRecord v)
  else if tag == Wait.tag then some (wait <$> Wait.ofRecord v)
  else if tag == Output.tag then some (output <$> Output.ofRecord v)
  else none

/-- The fault of a type that there is not, which is named, so a number must be short enough to be
written. It is met before the record is read, and so it is not wrapped as a fault of it. -/
def unknownType (tag : Value) : Fault :=
  if tag.isShort then .unknownAction tag tags else .longNumber

/-- The action of a record of the given type, given how the target of a movement is read. -/
def ofEntries (tag : Value) (es : List (Atom × Value)) (target : Unit → Outcome Action) :
    Outcome Action :=
  match tag with
  | .list _ | .map _ => .error .wrongType
  | .text s =>
    match simpleOfRecord? s (.map es) with
    | some action => Record.wrap s action
    | none =>
      if s == Movement.tag then Record.wrap s (movementOfEntries es target)
      else .error (unknownType tag)
  | _ => .error (unknownType tag)

mutual

/-- The action of a record. -/
def ofRecord : Value → Outcome Action
  | .map es => ofEntries (fieldD "type" es .null) es fun _ => targetOfEntries es
  | v => .error (.notRecord v.kindName)

/-- The target of a movement, from the entries of its record. -/
def targetOfEntries : List (Atom × Value) → Outcome Action
  | [] => .error (.missingField Movement.tag "target")
  | (key, v) :: es => if key.same (.text "target") then ofRecord v else targetOfEntries es

end

/-- The action of a record that is taken to be of a type. -/
def ofRecordAs (tag : String) (v : Value) : Outcome Action :=
  match simpleOfRecord? tag v with
  | some action => action
  | none => do
    let es ← v.entries
    movementOfEntries es fun _ => targetOfEntries es

end Action

end RobotProgram
