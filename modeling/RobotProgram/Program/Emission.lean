import RobotProgram.Program.Buffers

/-!
# Emission

What an action adds to a program: declarations of itself and of its named parts, and instruction
lines. A target shared by several movements reports its problems once.
-/

namespace RobotProgram.Program

/-- A program generator: a robot and settings. -/
structure Generator where
  robot : Robot Float
  settings : Settings := {}

namespace Generator

open Kinematics (Resolver)

/-- The tool of movements without one of their own. -/
def toolName (g : Generator) : Value :=
  if g.settings.toolName.truthy then g.settings.toolName else g.robot.tool.name

/-- Declares a robot position that has a name. -/
def emitRobotJoints (p : RobotJoints) : Emit Unit := do
  if p.name.truthy then
    let _ ← register p.name (.action (.robotJoints p)) p.declaration

/-- Declares an external position that has a name. -/
def emitExternalJoints (p : ExternalJoints) : Emit Unit := do
  if p.name.truthy then
    let _ ← register p.name (.action (.externalJoints p)) p.declaration

/-- Declares a speed that the controller does not know. -/
def emitSpeed (s : Speed) : Emit Unit := do
  if !s.predefined.truthy then
    let _ ← register s.name (.action (.speed s)) (← s.declaration)

/-- Declares a work object that the controller does not know. -/
def emitWorkObject (w : WorkObject) : Emit Unit := do
  if !w.isDefault then
    let _ ← register w.name (.workObject w) w.declaration

/-- Reports the limits that a joint target violates. -/
def reportLimits (g : Generator) (t : JointTarget) : Emit Unit := do
  let messages ← t.limitMessages g.robot
  (limitEvents t.owner messages).forM Emit.log
  addDiagnostics messages

/-- Declares a joint target and its parts, and reports its limits when its name is new. -/
def emitJointTarget (g : Generator) (t : JointTarget) : Emit Unit := do
  emitRobotJoints (← present t.robot)
  emitExternalJoints (← present t.external)
  if t.name.truthy then
    if ← register t.name (.action (.jointTarget t)) (← t.declaration) then g.reportLimits t

/-- Declares a robot target that has a name. -/
def emitRobotTarget (t : RobotTarget) : Emit Unit := do
  if t.name.truthy then
    let _ ← register t.name (.action (.robotTarget t)) (← t.declaration)

/-- The diagnostics of a resolved target: that it is not reached, or the limits it violates. -/
def solutionMessages (g : Generator) (t : RobotTarget) (solution : Kinematics.Solution Float) :
    Emit (List String) := do
  if !solution.valid then return solution.errors
  else
    let messages := checkLimits g.robot t.owner solution.internal solution.external
    (limitEvents t.owner messages).forM Emit.log
    return messages

/-- Declares where a movement to a robot target goes: its joint target for an absolute joint
movement, else the target itself with its resolved external values. Tells whether the name was
new. -/
def registerSolution (kind : MoveKind) (t : RobotTarget) (solution : Kinematics.Solution Float) :
    Emit Bool := do
  match kind with
  | .absoluteJoint =>
    let j := Movement.jointTarget (some (.robotTarget t)) solution
    if j.name.truthy then register j.name (.action (.jointTarget j)) (← j.declaration)
    else return false
  | _ =>
    if t.name.truthy then
      let line ← t.resolvedDeclaration (Movement.externalOf solution)
      register t.name (.action (.robotTarget t)) line
    else return false

/-- Resolves the target of a movement, declares it, and reports its problems when its name is new
or it has none. -/
def emitSolution [Resolver] (g : Generator) (m : Movement) (kind : MoveKind)
    (target : Option Action) : Emit Unit := do
  let solution ← Emit.ofLogged (m.solve target g.robot)
  match target with
  | some (.robotTarget t) =>
    let messages ← g.solutionMessages t solution
    let registered ← registerSolution kind t solution
    if registered || !t.name.truthy then addDiagnostics messages
  | _ => throw .noSuchPart

/-- Declares the speed and the work object of a movement. -/
def emitMovementParts (m : Movement) : Emit Unit := do
  emitSpeed (← present m.speed)
  emitWorkObject m.workObject

/-- Declares what an action names. -/
def emitDeclaration [Resolver] (g : Generator) : Action → Emit Unit
  | .robotJoints p => emitRobotJoints p
  | .externalJoints p => emitExternalJoints p
  | .jointTarget t => g.emitJointTarget t
  | .robotTarget t => emitRobotTarget t
  | .speed s => emitSpeed s
  | .wait _ | .output _ => return
  | .movement m (some (.jointTarget t)) => do
    emitMovementParts m
    g.emitJointTarget t
    if !t.name.truthy then g.reportLimits t
  | .movement m (some target) => do
    emitMovementParts m
    match m.kind with
    | .other _ => g.emitDeclaration target
    | .known kind => g.emitSolution m kind (some target)
  | .movement m none => do
    emitMovementParts m
    match m.kind with
    | .other _ => throw .noSuchPart
    | .known kind => g.emitSolution m kind none

/-- The diagnostic of a movement whose type is not known. -/
def unknownType (m : Movement) (target : Option Action) : Outcome String := do
  let text ← Action.movementText m target
  let n ← m.kind.toValue.integer
  return text ++ ": Unknown movement type " ++ toString n ++ "."

/-- Adds the instruction lines of an action. -/
def emitInstruction [Resolver] (g : Generator) : Action → Emit Unit
  | .wait w => addInstruction w.instruction
  | .output o => addInstruction o.instruction
  | .movement m target => do
    let text ← Emit.ofLogged (m.instruction target g.robot g.toolName)
    if text.isEmpty then addDiagnostics [← unknownType m target]
    else (Text.lines text).forM addInstruction
  | _ => return

end Generator

end RobotProgram.Program
