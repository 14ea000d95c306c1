import RobotProgram.Cell.Mechanism

/-!
# Stock mechanisms

Tracks and turntables as they are ordered: the limits are kept as they were given, and an order with
limits that are not numbers fails only when a value is compared with them.
-/

namespace RobotProgram

/-- A mechanism with limits as given. -/
structure MechanismOrder where
  name : Value
  kind : MechanismKind
  frame : Frame Float
  limits : Interval Value
  number : Int
  logic : Value

namespace MechanismOrder

/-- The first of two values unless the second is smaller. -/
def least (a b : Value) : Outcome Value := do
  if ← b.less a then return b else return a

/-- The first of two values unless the second is greater. -/
def greatest (a b : Value) : Outcome Value := do
  if ← a.less b then return b else return a

/-- Whether a value lies between the limits. -/
def reaches (m : MechanismOrder) (v : Value) : Outcome Bool := do
  let low ← least m.limits.start m.limits.stop
  if ← low.atMost v then v.atMost (← greatest m.limits.start m.limits.stop)
  else return false

/-- A limit as a number; one that is no number admits nothing. -/
def limit (v : Value) : Float :=
  match v.scalar with
  | .ok x => x
  | .error _ => 0.0 / 0.0

/-- The mechanism that is ordered. -/
def mechanism (m : MechanismOrder) : Mechanism Float :=
  ⟨m.name, m.kind, m.frame, ⟨limit m.limits.start, limit m.limits.stop⟩, m.number, m.logic⟩

/-- The slot number of a value. -/
def slotNumber : Value → Outcome Int
  | .int n => .ok n
  | .bool b => .ok (if b then 1 else 0)
  | _ => .error .wrongType

/-- A mechanism with limits that are numbers. -/
def ofParts (name : Value) (kind : MechanismKind) (frame : Frame Float) (limits : Interval Float)
    (number logic : Value) : Outcome MechanismOrder := do
  let number ← slotNumber number
  return ⟨name, kind, frame, ⟨.float limits.start, .float limits.stop⟩, number,
    axisLogic number logic⟩

/-- The frame of a track along the first axis of the world. -/
def trackFrame : Frame Float := ⟨.zero, .unitY, .unitZ⟩

/-- A track of a length. -/
def track (name length : Value) (frame : Frame Float) (number : Value) :
    Outcome MechanismOrder := do
  let number ← slotNumber number
  return ⟨name, .linear, frame, ⟨.float 0.0, length⟩, number, axisLogic number .null⟩

/-- The opposite of a quantity; zero has a sign only among floating-point numbers. -/
def opposite : Value → Outcome Value
  | .float x => .ok (.float (-x))
  | .int n => .ok (.int (-n))
  | .bool b => .ok (.int (if b then -1 else 0))
  | _ => .error .wrongType

/-- A turntable with a vertical axis, which turns by the same angle to either side. -/
def turntable (name rotation position number : Value) : Outcome MechanismOrder := do
  let center ← Vector3.ofValue position
  let frame ← Frame.ofAxes center .unitX .unitY
  let low ← (← opposite rotation).scalar
  let high ← rotation.scalar
  ofParts name .rotational frame ⟨low / 2.0, high / 2.0⟩ number .null

/-- The order in a mapping: a track, a turntable, or a mechanism given by its parts, with defaults
for what is left out. -/
def ofEntries (kind : String) (es : List (Atom × Value)) : Outcome MechanismOrder :=
  match kind with
  | "track" => do
    let frame ← match field? "axis_frame" es with
      | some f => Frame.ofValue f
      | none => pure trackFrame
    track (fieldD "name" es (.text "linear_track")) (fieldD "length" es (.float 3000.0)) frame
      (fieldD "axis_number" es (.int 0))
  | "turntable" =>
    turntable (fieldD "name" es (.text "turntable")) (fieldD "max_rotation" es (.float 360.0))
      (fieldD "position" es (.list [.int 0, .int 0, .int 0])) (fieldD "axis_number" es (.int 1))
  | kind => do
    let frame ← Frame.ofValue (fieldD "frame" es .null)
    let limits ← Interval.ofValue (fieldD "limits" es .null)
    ofParts (fieldD "name" es (.text "axis"))
      (if kind == "rotational" then .rotational else .linear) frame limits
      (fieldD "axis_number" es (.int 0)) (fieldD "axis_logic" es .null)

end MechanismOrder

end RobotProgram
