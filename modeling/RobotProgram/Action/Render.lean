import RobotProgram.Action.Basic

/-!
# Move instructions

A movement to a robot target is resolved for the robot; resolving logs an event. A move instruction
refers to its target by name, or writes it in place.
-/

namespace RobotProgram

/-- A computation that may fail and logs events, which stay when it fails. -/
abbrev Logged := ExceptT Fault (StateM (List Event))

/-- Logs an event. -/
def logEvent (e : Event) : Logged Unit := modify (· ++ [e])

/-- The outcome of a logged computation, without its events. -/
def Logged.outcome {α : Type} (x : Logged α) : Outcome α := (x.run []).1

namespace Movement

open Kinematics (Resolver Solution)

/-- The axis values for the target of a movement. -/
def solve [Resolver] (m : Movement) (target : Option Action) (robot : Robot Float) :
    Logged (Solution Float) := do
  let resolve ← Resolver.resolver robot
  match target, m.globalFrame with
  | some (.robotTarget t), some frame =>
    let solution ← resolve frame (t.external.elim noSlots (·.slots)) t.owner
    logEvent (solution.event t.owner)
    return solution
  | _, _ => throw .noSuchPart

/-- The external values of a solution. -/
def externalOf (solution : Solution Float) : ExternalJoints :=
  .ofSlots solution.external (.text "") .var

/-- The joint target that an absolute joint movement to a robot target goes to. -/
def jointTarget (target : Option Action) (solution : Solution Float) : JointTarget :=
  let name := Action.targetName target
  .make (.text (if name.truthy then name.toText ++ "_jt" else ""))
    ⟨solution.internal, .text "", .var⟩ (externalOf solution) .const

/-- The name of something that is no target: unless it has one, solving for it fails. -/
def nameOrSolve [Resolver] (m : Movement) (target : Option Action) (robot : Robot Float)
    (name : Value) : Logged Value := do
  if name.truthy then return name
  else
    let _ ← m.solve target robot
    throw .noSuchPart

/-- How a linear or joint movement refers to its target. -/
def poseReference [Resolver] (m : Movement) (target : Option Action) (robot : Robot Float)
    (tool : Value) : Logged Value := do
  match target with
  | some (.jointTarget t) =>
    return .text ("CalcRobT(" ++ (← t.reference).toText ++ ", " ++ tool.toText ++ "\\WObj:=" ++
      m.workObject.name.toText ++ ")")
  | some (.robotTarget t) =>
    if t.name.truthy then return t.name
    else
      let solution ← m.solve target robot
      return .text (← t.valueText (externalOf solution))
  | some (.robotJoints p) => m.nameOrSolve target robot p.name
  | some (.externalJoints p) => m.nameOrSolve target robot p.name
  | some a =>
    match a.name? with
    | some name => if name.truthy then return name else throw .noSuchPart
    | none => throw .noSuchPart
  | none => throw .noSuchPart

/-- How a move instruction refers to its target. -/
def targetReference [Resolver] (m : Movement) (target : Option Action) (kind : MoveKind)
    (robot : Robot Float) (tool : Value) : Logged Value := do
  match kind with
  | .absoluteJoint =>
    match target with
    | some (.jointTarget t) => t.reference
    | _ =>
      let solution ← m.solve target robot
      (jointTarget target solution).reference
  | _ => m.poseReference target robot tool

/-- The instruction of a movement, empty for a type that is not known. Lines are separated by line
feeds. -/
def instruction [Resolver] (m : Movement) (target : Option Action) (robot : Robot Float)
    (ambient : Value) : Logged String := do
  match m.kind with
  | .other _ => return ""
  | .known kind =>
    let tool := m.toolName robot ambient
    let reference ← m.targetReference target kind robot tool
    let speed ← present m.speed
    let zone ← m.zone
    let arguments := reference.toText ++ ", " ++ speed.name.toText ++ ", " ++ zone ++ ", " ++
      tool.toText ++ "\\WObj:=" ++ m.workObject.name.toText
    match m.output with
    | some output =>
      if !output.isValid then return kind.instruction ++ " " ++ arguments ++ ";"
      else if kind = .absoluteJoint then
        return kind.instruction ++ " " ++ arguments ++ ";\n" ++ output.instruction
      else
        return kind.instruction ++ "DO " ++ arguments ++ ", " ++ output.name.toText ++ ", " ++
          output.state ++ ";"
    | none => return kind.instruction ++ " " ++ arguments ++ ";"

end Movement

/-- The instruction of an action, empty if it gives none. -/
def Action.instruction [Kinematics.Resolver] (a : Action) (robot : Robot Float) (ambient : Value) :
    Logged String :=
  match a with
  | .wait w => return w.instruction
  | .output o => return o.instruction
  | .movement m target => m.instruction target robot ambient
  | _ => return ""

end RobotProgram
