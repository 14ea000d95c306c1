import RobotProgram.Action.Joints
import RobotProgram.Cell.Tool
import RobotProgram.Limits

/-!
# Targets

A joint target gives the axis values of the robot and the external slots; a robot target gives the
pose of the tool relative to a work object. Parts of a target can be taken away from it, and a
target without its parts is not valid.
-/

namespace RobotProgram

/-- Axis values that a movement can go to. -/
structure JointTarget where
  name : Value
  robot : Option RobotJoints
  external : Option ExternalJoints
  storage : Storage

/-- The owner of diagnostics: a kind and a name. -/
def ownerText (kind : String) (name : Value) : String :=
  Text.trimEnd (kind ++ " " ++ name.toText)

/-- A part that has not been taken away. -/
def present {α : Type} : Option α → Outcome α
  | some a => .ok a
  | none => .error .noSuchPart

namespace JointTarget

/-- The record type. -/
def tag : String := "JointTarget"

/-- The kind in messages. -/
def kindText : String := "Joint Target"

/-- The joint target with the given parts. -/
def make (name : Value) (robot : RobotJoints) (external : ExternalJoints) (storage : Storage) :
    JointTarget :=
  ⟨name, some robot, some external, storage⟩

/-- Whether both parts are there and valid. -/
def isValid (t : JointTarget) : Bool :=
  match t.robot, t.external with
  | some r, some e => r.isValid && e.isValid
  | _, _ => false

/-- A copy, in which default parts replace missing ones. -/
def duplicate (t : JointTarget) : JointTarget :=
  make t.name (t.robot.getD .zero) (t.external.getD .undefined) t.storage

/-- The target in messages. -/
def text (t : JointTarget) : String := namedText kindText t.isValid t.name

/-- The target as data. -/
def literal (t : JointTarget) : Outcome String := do
  return "JointTarget(name=" ++ t.name.literal ++ ", robot=" ++
    (← present t.robot).valuesValue.literal ++ ", external=" ++
    ((← present t.external).valuesValue .null).literal ++ ")"

/-- The owner of the target's diagnostics. -/
def owner (t : JointTarget) : String := ownerText kindText t.name

/-- The limits that the target violates. -/
def limitMessages (t : JointTarget) (robot : Robot Float) : Outcome (List String) := do
  return checkLimits robot t.owner (← present t.robot).values (← present t.external).slots

/-- The value in program text. -/
def valueText (t : JointTarget) : Outcome String := do
  return "[" ++ (← present t.robot).reference.toText ++ ", " ++
    (← present t.external).reference.toText ++ "]"

/-- How a program refers to the target. -/
def reference (t : JointTarget) : Outcome Value :=
  if t.name.truthy then .ok t.name else .text <$> t.valueText

/-- The declaration of the target. -/
def declaration (t : JointTarget) : Outcome String :=
  if t.name.truthy then declarationText t.storage "jointtarget" t.name <$> t.valueText
  else .ok ""

/-- The record of the target. -/
def toRecord (t : JointTarget) : Outcome Value := do
  return Record.make tag [("name", t.name), ("variable_type", .text t.storage.word),
    ("robot_joint_position", (← present t.robot).toRecord),
    ("external_joint_position", (← present t.external).toRecord)]

/-- The target of a record. -/
def ofRecord (v : Value) : Outcome JointTarget := do
  let es ← v.entries
  let version ← Record.version tag es
  let robot ← RobotJoints.ofRecord (← Record.required tag "robot_joint_position" es)
  let external ← Record.part? ExternalJoints.ofRecord "external_joint_position" es
  let storage ← Record.storage version es
  return make (fieldD "name" es (.text "")) robot (external.getD .undefined) storage

end JointTarget

/-- A tool pose that a movement can go to. -/
structure RobotTarget where
  name : Value
  /-- The pose relative to the work object. -/
  frame : Option (Frame Float)
  /-- The quadrant of the robot's configuration. -/
  config : Int
  /-- The external values that are asked for. -/
  external : Option ExternalJoints
  storage : Storage

namespace RobotTarget

/-- The record type. -/
def tag : String := "RobotTarget"

/-- The kind in messages. -/
def kindText : String := "Robot Target"

/-- The robot target with the given parts. -/
def make (name : Value) (frame : Frame Float) (config : Value) (external : ExternalJoints)
    (storage : Storage) : Outcome RobotTarget := do
  let frame ← frame.rebuild
  return ⟨name, some frame, ← config.integer, some external, storage⟩

/-- Whether the frame is there and the external values are valid. -/
def isValid (t : RobotTarget) : Outcome Bool :=
  if t.frame.isNone then .ok false else do return (← present t.external).isValid

/-- A copy, in which default parts replace missing ones. -/
def duplicate (t : RobotTarget) : Outcome RobotTarget := do
  let frame ← match t.frame with
    | some f => f.rebuild
    | none => pure .world
  return { t with frame := some frame, external := some (t.external.getD .undefined) }

/-- The target in messages. -/
def text (t : RobotTarget) : Outcome String := do
  return namedText kindText (← t.isValid) t.name

/-- The target as data. -/
def literal (t : RobotTarget) : Outcome String := do
  return "RobotTarget(name=" ++ t.name.literal ++ ", point=" ++
    (← present t.frame).point.toValue.literal ++ ", cfx=" ++ toString t.config ++ ")"

/-- The owner of the target's diagnostics. -/
def owner (t : RobotTarget) : String := ownerText kindText t.name

/-- The value in program text, with the given external values. -/
def valueText (t : RobotTarget) (external : ExternalJoints) : Outcome String := do
  let frame ← present t.frame
  return "[" ++ Number.renderList Number.positionPlaces frame.point.toList ++ ", " ++
    Number.renderList Number.quaternionPlaces frame.quaternion.toList ++ ", [0, 0, 0, " ++
    toString t.config ++ "], " ++ external.valueText ++ "]"

/-- The value in program text, with the external values that are asked for. -/
def ownValueText (t : RobotTarget) : Outcome String :=
  match t.frame, t.external with
  | some _, some e => t.valueText e
  | _, _ => .error .noSuchPart

/-- How a program refers to the target. -/
def reference (t : RobotTarget) : Outcome Value :=
  if t.name.truthy then .ok t.name else .text <$> t.ownValueText

/-- The declaration of the target. -/
def declaration (t : RobotTarget) : Outcome String :=
  if t.name.truthy then declarationText t.storage "robtarget" t.name <$> t.ownValueText
  else .ok ""

/-- The declaration of the target with resolved external values. -/
def resolvedDeclaration (t : RobotTarget) (external : ExternalJoints) : Outcome String :=
  if t.name.truthy then declarationText t.storage "robtarget" t.name <$> t.valueText external
  else .ok ""

/-- The record of the target. -/
def toRecord (t : RobotTarget) : Outcome Value := do
  return Record.make tag [("name", t.name), ("variable_type", .text t.storage.word),
    ("frame", (← present t.frame).toValue), ("axis_config", .int t.config),
    ("external_joint_position", (← present t.external).toRecord)]

/-- The target of a record. -/
def ofRecord (v : Value) : Outcome RobotTarget := do
  let es ← v.entries
  let version ← Record.version tag es
  let frame ← Frame.ofValue (← Record.required tag "frame" es)
  let external ← Record.part? ExternalJoints.ofRecord "external_joint_position" es
  let storage ← Record.storage version es
  make (fieldD "name" es (.text "")) frame (fieldD "axis_config" es (.int 0))
    (external.getD .undefined) storage

end RobotTarget

end RobotProgram
