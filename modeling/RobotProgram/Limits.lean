import RobotProgram.Kinematics.Resolve

/-!
# Axis limits

Limits are checked to advise, not to refuse: each axis outside its limits gives one message that
names the owner of the values.
-/

namespace RobotProgram

variable {α : Type} [Scalar α]

open Kinematics (Angles)

/-- The message about a robot axis, counted from one. -/
def axisMessage (owner : String) (axis : Nat) : String :=
  owner ++ ": The position of robot axis " ++ toString axis ++ " is not in range."

/-- The message about a mechanism. -/
def mechanismMessage (owner : String) (m : Mechanism α) (problem : String) : String :=
  owner ++ ": The position of external logical axis " ++ m.logic.toText ++ " is not " ++ problem

/-- One message for each robot axis outside its limits. -/
def checkAxes (r : Robot α) (owner : String) (joints : Angles α) : List String :=
  ((joints.zip r.axisLimits).toList.zipIdx 1).filterMap fun ((x, limits), axis) =>
    if limits.includes x then none else some (axisMessage owner axis)

/-- The message about one mechanism, if its slot is undefined or outside the limits. -/
def checkMechanism (owner : String) (slots : Slots α) (m : Mechanism α) : Option String :=
  match slotValue slots m with
  | none => some (mechanismMessage owner m "defined (9E9).")
  | some x => if m.reaches x then none else some (mechanismMessage owner m "in range.")

/-- One message for each mechanism whose slot is undefined or outside the limits. -/
def checkSlots (r : Robot α) (owner : String) (slots : Slots α) : List String :=
  r.mechanisms.filterMap (checkMechanism owner slots)

/-- The messages about robot axes, then those about mechanisms. -/
def checkLimits (r : Robot α) (owner : String) (joints : Angles α) (slots : Slots α) :
    List String :=
  checkAxes r owner joints ++ checkSlots r owner slots

/-- The event that violated limits log. -/
def limitEvents (owner : String) (messages : List String) : List Event :=
  if messages.isEmpty then []
  else [⟨.debug, "axis_limits_violated",
    [("owner", .text owner), ("count", .int messages.length)]⟩]

end RobotProgram
