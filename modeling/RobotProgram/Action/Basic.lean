import RobotProgram.Action.Instruction

/-!
# Actions

A program is a list of actions. Each plays roles: it declares a variable, gives an instruction, or
can be the target of a movement.
-/

namespace RobotProgram

/-- The roles of an action in a program. -/
inductive Role where
  | declaration
  | instruction
  | target
deriving DecidableEq, Repr

/-- What a program is made of. -/
inductive Action where
  | robotJoints (p : RobotJoints)
  | externalJoints (p : ExternalJoints)
  | jointTarget (t : JointTarget)
  | robotTarget (t : RobotTarget)
  | speed (s : Speed)
  | wait (w : Wait)
  | output (o : Output)
  | movement (m : Movement) (target : Option Action)

namespace Action

/-- The roles of an action. -/
def roles : Action → List Role
  | robotJoints _ | externalJoints _ | speed _ => [.declaration]
  | jointTarget _ | robotTarget _ => [.declaration, .target]
  | wait _ | output _ | movement _ _ => [.instruction]

/-- The record type of an action. -/
def tag : Action → String
  | robotJoints _ => RobotJoints.tag
  | externalJoints _ => ExternalJoints.tag
  | jointTarget _ => JointTarget.tag
  | robotTarget _ => RobotTarget.tag
  | speed _ => Speed.tag
  | wait _ => Wait.tag
  | output _ => Output.tag
  | movement _ _ => Movement.tag

/-- The record types, in order. -/
def tags : List String :=
  [Output.tag, ExternalJoints.tag, JointTarget.tag, Movement.tag, RobotJoints.tag, RobotTarget.tag,
    Speed.tag, Wait.tag]

/-- The name of an action that has one. -/
def name? : Action → Option Value
  | robotJoints p => some p.name
  | externalJoints p => some p.name
  | jointTarget t => some t.name
  | robotTarget t => some t.name
  | speed s => some s.name
  | output o => some o.name
  | wait _ | movement _ _ => none

/-- Whether the target of a movement can be moved to. -/
def targetIsValid : Option Action → Outcome Bool
  | some (jointTarget t) => .ok t.isValid
  | some (robotTarget t) => t.isValid
  | _ => .ok false

/-- Whether a movement has a speed and a target that are valid. -/
def movementIsValid (m : Movement) (target : Option Action) : Outcome Bool := do
  match m.speed with
  | none => return false
  | some s => if ← targetIsValid target then s.isValid else return false

/-- Whether an action is sound by itself. -/
def isValid : Action → Outcome Bool
  | robotJoints p => .ok p.isValid
  | externalJoints p => .ok p.isValid
  | jointTarget t => .ok t.isValid
  | robotTarget t => t.isValid
  | speed s => s.isValid
  | wait w => .ok w.isValid
  | output o => .ok o.isValid
  | movement m target => movementIsValid m target

/-- The name of a target. -/
def targetName (target : Option Action) : Value := (target.bind name?).getD .null

/-- A movement in messages. -/
def movementText (m : Movement) (target : Option Action) : Outcome String := do
  if ← movementIsValid m target then
    match m.kind with
    | .known k =>
      return Movement.kindText ++ " (" ++
        Text.trimEnd (k.instruction ++ " " ++ (targetName target).toText) ++ ")"
    | .other _ => return Movement.kindText
  else return "Invalid " ++ Movement.kindText

/-- An action in messages. -/
def text : Action → Outcome String
  | robotJoints p => .ok p.text
  | externalJoints p => .ok p.text
  | jointTarget t => .ok t.text
  | robotTarget t => t.text
  | speed s => s.text
  | wait w => .ok w.text
  | output o => .ok o.text
  | movement m target => movementText m target

/-- The declaration of an action, empty if it declares nothing. -/
def declaration : Action → Outcome String
  | robotJoints p => .ok p.declaration
  | externalJoints p => .ok p.declaration
  | jointTarget t => t.declaration
  | robotTarget t => t.declaration
  | speed s => s.declaration
  | wait _ | output _ | movement _ _ => .ok ""

/-! ### Movements -/

/-- The pose of a target in world coordinates, for robot targets. -/
def globalFrame (workObject : WorkObject) : Option Action → Outcome (Option (Frame Float))
  | some (robotTarget t) => do
    let parent ← workObject.globalFrame
    return some (← parent.compose (← present t.frame))
  | _ => .ok none

/-- The movement whose pose in world coordinates is computed anew. -/
def recompute (m : Movement) (target : Option Action) : Outcome Action := do
  return movement { m with globalFrame := ← globalFrame m.workObject target } target

/-- The movement with the given parts, which are its own copies. -/
def makeMovement (target : Option Action) (speed : Option Speed) (kind precision : Value)
    (tool : Option (Tool Float)) (workObject : Option WorkObject) (output : Option Output) :
    Outcome Action := do
  let speed ← (speed.getD .slowest).duplicate
  let kind ← MoveType.ofValue kind
  let precision ← precision.integer
  recompute ⟨some speed, kind, .int precision, tool, workObject.getD .default, output, none⟩
    target

/-- A copy of an action. -/
def duplicate : Action → Outcome Action
  | robotJoints p => .ok (robotJoints p)
  | externalJoints p => .ok (externalJoints p)
  | jointTarget t => .ok (jointTarget t.duplicate)
  | robotTarget t => robotTarget <$> t.duplicate
  | speed s => speed <$> s.duplicate
  | wait w => .ok (wait w)
  | output o => .ok (output o)
  | movement m none =>
    makeMovement none m.speed m.kind.toValue m.precision m.tool (some m.workObject) m.output
  | movement m (some target) => do
    makeMovement (some (← duplicate target)) m.speed m.kind.toValue m.precision m.tool
      (some m.workObject) m.output

/-- The movement to a copy of a target, with the given parts. -/
def moveTo (target : Option Action) (speed : Option Speed) (kind precision : Value)
    (tool : Option (Tool Float)) (workObject : Option WorkObject) (output : Option Output) :
    Outcome Action := do
  let target ← target.mapM duplicate
  makeMovement target speed kind precision tool workObject output

/-- The record of a movement whose target has the given record. -/
def movementRecord (m : Movement) (target : Value) : Outcome Value := do
  let speed ← present m.speed
  let kind ← m.kind.toValue.integer
  return Record.make Movement.tag [("target", target), ("speed_data", speed.toRecord),
    ("movement_type", .int kind), ("precision", m.precision),
    ("robot_tool", m.tool.elim .null Tool.toValue), ("work_object", m.workObject.toValue),
    ("digital_output", m.output.elim .null Output.toRecord)]

/-- The record of an action. -/
def toRecord : Action → Outcome Value
  | robotJoints p => .ok p.toRecord
  | externalJoints p => .ok p.toRecord
  | jointTarget t => t.toRecord
  | robotTarget t => t.toRecord
  | speed s => .ok s.toRecord
  | wait w => .ok w.toRecord
  | output o => .ok o.toRecord
  | movement _ none => .error .noSuchPart
  | movement m (some target) => do movementRecord m (← toRecord target)

end Action

end RobotProgram
