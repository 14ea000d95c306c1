import RobotProgram.Action.Basic

/-!
# Joint positions of either kind

The joint position of a robot or of its external mechanisms, with what both can do. Only robot
positions have arithmetic.
-/

namespace RobotProgram

/-- A joint position of the robot or of its external mechanisms. -/
inductive JointPosition where
  | robot (p : RobotJoints)
  | external (p : ExternalJoints)

namespace JointPosition

/-- A position of the same kind as another one, or of a kind of its own. -/
def make (isRobot : Bool) (values name storage : Value) : Outcome JointPosition :=
  if isRobot then robot <$> RobotJoints.make values name storage
  else external <$> ExternalJoints.make values name storage

/-- Whether the position is one of the robot. -/
def isRobot : JointPosition → Bool
  | robot _ => true
  | external _ => false

/-- The position as an action. -/
def action : JointPosition → Action
  | robot p => .robotJoints p
  | external p => .externalJoints p

/-- The values as records hold them. -/
def stored : JointPosition → Value
  | robot p => p.valuesValue
  | external p => p.storedValues

/-- The values, with nothing where a slot is undefined. -/
def values : JointPosition → Value
  | robot p => p.valuesValue
  | external p => p.valuesValue .null

/-- The value at an index, if it is defined. -/
def get (p : JointPosition) (index : Value) : Outcome (Option Float) :=
  match p with
  | robot p => some <$> p.get index
  | external p => p.get index

/-- The position with a value assigned. -/
def set (p : JointPosition) (index value : Value) : Outcome JointPosition :=
  match p with
  | robot p => robot <$> p.set index value
  | external p => external <$> p.set index value

/-- The position under another name. -/
def rename (p : JointPosition) (name : Value) : JointPosition :=
  match p with
  | robot p => robot { p with name }
  | external p => external { p with name }

/-- How instructions refer to the position. -/
def reference : JointPosition → Value
  | robot p => p.reference
  | external p => p.reference

/-- Whether two positions are equal; those of different kinds are not. -/
def same : JointPosition → JointPosition → Bool
  | robot p, robot q => p.same q
  | external p, external q => p.same q
  | _, _ => false

/-- A robot position computed from two. -/
def combine (f : RobotJoints → RobotJoints → RobotJoints) : JointPosition → JointPosition →
    Outcome RobotJoints
  | robot p, robot q => .ok (f p q)
  | _, _ => .error .wrongType

/-- A robot position with all values scaled. -/
def scale (p : JointPosition) (factor : Value) : Outcome RobotJoints :=
  match p with
  | robot p => p.scale factor
  | external _ => .error .wrongType

end JointPosition

end RobotProgram
