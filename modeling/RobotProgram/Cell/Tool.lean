import RobotProgram.Geometry.Frame
import RobotProgram.Number.Fixed

/-!
# Tools and work objects

A tool mates with the flange at its attachment frame and works at its tip. A work object is the
coordinate system of targets: an object frame given in a user frame.
-/

namespace RobotProgram

/-- A tool on the robot's flange. -/
structure Tool (α : Type) where
  name : Value
  attachment : Frame α
  tip : Frame α

/-- The tool that every robot has. -/
def Tool.default {α : Type} [Scalar α] : Tool α := ⟨.text "tool0", .world, .world⟩

/-- The tip of a tool whose attachment frame is moved onto the flange. -/
def Tool.attachedTip {α : Type} [Scalar α] (t : Tool α) (flange : Frame α) : Outcome (Frame α) :=
  t.tip.reattach t.attachment flange

/-- A tool as a record. -/
def Tool.toValue (t : Tool Float) : Value :=
  .record [("name", t.name), ("attachment_frame", t.attachment.toValue),
    ("tool_frame", t.tip.toValue)]

/-- The tool of a record. -/
def Tool.ofValue (v : Value) : Outcome (Tool Float) := do
  let es ← v.entries
  let attachment ← Frame.ofValue (fieldD "attachment_frame" es .null)
  let tip ← Frame.ofValue (fieldD "tool_frame" es .null)
  return ⟨fieldD "name" es (.text "tool0"), attachment, tip⟩

/-- The coordinate system of targets. -/
structure WorkObject where
  name : Value
  userFrame : Frame Float
  objectFrame : Frame Float

namespace WorkObject

/-- The work object that every controller has. -/
def default : WorkObject := ⟨.text "wobj0", .world, .world⟩

/-- The object frame in world coordinates. -/
def globalFrame (w : WorkObject) : Outcome (Frame Float) := w.userFrame.compose w.objectFrame

/-- Whether this is the work object that needs no declaration. -/
def isDefault (w : WorkObject) : Bool := w.name.same (.text "wobj0")

/-- Whether the work object has a name. -/
def isValid (w : WorkObject) : Bool := w.name.truthy

end WorkObject

/-- A frame in program text: its point and its quaternion. -/
def Frame.poseText (f : Frame Float) : String :=
  "[" ++ Number.renderList Number.positionPlaces f.point.toList ++ ", " ++
    Number.renderList Number.quaternionPlaces f.quaternion.toList ++ "]"

namespace WorkObject

/-- The declaration of a work object, empty for one that needs none. -/
def declaration (w : WorkObject) : String :=
  if w.isDefault || !w.isValid then ""
  else
    "TASK PERS wobjdata " ++ w.name.toText ++ " := [FALSE, TRUE, \"\", " ++
      w.userFrame.poseText ++ ", " ++ w.objectFrame.poseText ++ "];"

/-- A work object as a record. -/
def toValue (w : WorkObject) : Value :=
  .record [("name", w.name), ("user_frame", w.userFrame.toValue),
    ("object_frame", w.objectFrame.toValue)]

/-- The work object of a record. -/
def ofValue (v : Value) : Outcome WorkObject := do
  let es ← v.entries
  let userFrame ← Frame.ofValue (fieldD "user_frame" es .null)
  let objectFrame ← Frame.ofValue (fieldD "object_frame" es .null)
  return ⟨fieldD "name" es (.text "wobj0"), userFrame, objectFrame⟩

end WorkObject

end RobotProgram
