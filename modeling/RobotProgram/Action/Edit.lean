import RobotProgram.Action.Basic

/-!
# Editing movements

A movement owns copies of its parts. Giving it another target or work object computes its pose in
world coordinates anew; other parts are just replaced, and a change inside a part leaves the pose as
it was.
-/

namespace RobotProgram

/-- The joint target without one of its parts. -/
def JointTarget.without (t : JointTarget) (part : String) : JointTarget :=
  match part with
  | "robot_joint_position" => { t with robot := none }
  | "external_joint_position" => { t with external := none }
  | _ => t

/-- The robot target without one of its parts. -/
def RobotTarget.without (t : RobotTarget) (part : String) : RobotTarget :=
  match part with
  | "frame" => { t with frame := none }
  | "external_joint_position" => { t with external := none }
  | _ => t

/-- A change of a movement. -/
inductive Edit where
  | target (t : Option Action)
  | workObject (w : Option WorkObject)
  /-- Moves the point of the target's frame. -/
  | targetPoint (p : Vector3 Float)
  /-- Moves the point of the work object's user frame. -/
  | workObjectPoint (p : Vector3 Float)
  /-- Takes a part away from the target. -/
  | clear (part : String)
  | recompute
  | speed (s : Option Speed)
  | tool (t : Option (Tool Float))
  | output (o : Option Output)
  /-- Assigns a type, which then is none of the known ones. -/
  | kind (v : Value)
  | precision (v : Value)

namespace Edit

/-- The target with its point moved. -/
def movePoint (p : Vector3 Float) : Option Action → Outcome (Option Action)
  | some (.robotTarget t) => do
    let frame ← present t.frame
    return some (.robotTarget { t with frame := some { frame with point := p } })
  | _ => .error .noSuchPart

/-- The target without a part. -/
def clearPart (part : String) : Option Action → Outcome (Option Action)
  | some (.jointTarget t) => .ok (some (.jointTarget (t.without part)))
  | some (.robotTarget t) => .ok (some (.robotTarget (t.without part)))
  | some a => .ok (some a)
  | none => .error .noSuchPart

/-- The movement after a change. -/
def apply (m : Movement) (current : Option Action) : Edit → Outcome Action
  | target t => do Action.recompute m (← t.mapM Action.duplicate)
  | workObject w => do Action.recompute { m with workObject := ← present w } current
  | targetPoint p => .movement m <$> movePoint p current
  | workObjectPoint p =>
    let w := m.workObject
    .ok (.movement { m with workObject :=
      { w with userFrame := { w.userFrame with point := p } } } current)
  | clear part => .movement m <$> clearPart part current
  | recompute => Action.recompute m current
  | speed s => .ok (.movement { m with speed := s } current)
  | tool t => .ok (.movement { m with tool := t } current)
  | output o => .ok (.movement { m with output := o } current)
  | kind v => .ok (.movement { m with kind := .other v } current)
  | precision v => .ok (.movement { m with precision := v } current)

end Edit

end RobotProgram
