import RobotProgram.Action.Joints

/-!
# Speeds

A speed gives the velocities of the tool, of its reorientation and of the external mechanisms.
Controllers know a table of predefined speeds, which are never declared; a tool speed can be moved
to the nearest of them.
-/

namespace RobotProgram

/-- The predefined tool speeds in millimetres per second, slowest first. -/
def predefinedSpeeds : List Nat :=
  [5, 10, 20, 30, 40, 50, 60, 80, 100, 150, 200, 300, 400, 500,
    600, 800, 1000, 1500, 2000, 2500, 3000, 4000, 5000, 6000, 7000]

/-- The distance of a quantity from a speed of the table. -/
def speedDistance (v : Value.Quantity) (s : Nat) : Value.Quantity :=
  match v with
  | .whole n => .whole (s - n).natAbs
  | .real x => .real (Float.ofNat s - x).abs

/-- The nearest of two speeds, the first when neither is nearer. -/
def nearer (v : Value.Quantity) (best s : Nat) : Nat :=
  if (speedDistance v s).order (speedDistance v best) == some .lt then s else best

/-- The predefined speed nearest to a quantity, the slowest of several. -/
def nearestSpeed (v : Value.Quantity) : Nat :=
  predefinedSpeeds.tail.foldl (nearer v) 5

/-- The velocities of a movement. They are kept as they were assigned, and need to be numbers only
where they are compared or written. -/
structure Speed where
  name : Value
  /-- The velocity of the tool. -/
  tool : Value
  /-- The velocity of reorientation. -/
  turn : Value
  /-- The velocity of linear external mechanisms. -/
  linear : Value
  /-- The velocity of rotational external mechanisms. -/
  rotational : Value
  /-- Whether the controller knows the speed. -/
  predefined : Value
  /-- Whether a predefined speed was asked for with its very value. -/
  exact : Bool

namespace Speed

/-- The record type. -/
def tag : String := "SpeedData"

/-- The kind in messages. -/
def kindText : String := "Speed Data"

/-- The default velocity of reorientation. -/
def defaultTurn : Value := .float 500.0

/-- The default velocity of linear mechanisms. -/
def defaultLinear : Value := .float 5000.0

/-- The default velocity of rotational mechanisms. -/
def defaultRotational : Value := .float 1000.0

/-- A speed of its own, with velocities that are numbers. -/
def make (name tool turn linear rotational : Value) : Outcome Speed := do
  return ⟨name, .float (← tool.number), .float (← turn.number), .float (← linear.number),
    .float (← rotational.number), .bool false, false⟩

/-- The fields that a new speed may be given. -/
def fields : List String := ["name", "v_tcp", "v_ori", "v_leax", "v_reax"]

/-- The speed of a mapping: a name and a tool speed are required, and no other than the known fields
is allowed. -/
def ofEntries (es : List (Atom × Value)) : Outcome Speed :=
  match field? "name" es, field? "v_tcp" es with
  | some name, some tool =>
    if es.all fun e => fields.any fun f => e.1.same (.text f) then
      make name tool (fieldD "v_ori" es defaultTurn) (fieldD "v_leax" es defaultLinear)
        (fieldD "v_reax" es defaultRotational)
    else .error .wrongType
  | _, _ => .error .wrongType

/-- The speed with one field assigned as it is; whether the speed is exact or valid cannot be
assigned. -/
def assign (s : Speed) (key : String) (v : Value) : Outcome Speed :=
  match key with
  | "name" => .ok { s with name := v }
  | "v_tcp" => .ok { s with tool := v }
  | "v_ori" => .ok { s with turn := v }
  | "v_leax" => .ok { s with linear := v }
  | "v_reax" => .ok { s with rotational := v }
  | "predefined" => .ok { s with predefined := v }
  | "exact_predefined" | "is_valid" => .error .noSuchPart
  | _ => .ok s

/-- The predefined speed for an entry of the table. -/
def ofTable (s : Nat) (exact : Bool) : Speed :=
  ⟨.text ("v" ++ toString s), .float (Float.ofNat s), defaultTurn, defaultLinear,
    defaultRotational, .bool true, exact⟩

/-- The predefined speed nearest to a tool speed. -/
def ofTool (v : Value) : Outcome Speed := do
  let s := nearestSpeed (← v.quantity)
  return ofTable s (v.same (.int s))

/-- The slowest predefined speed. -/
def slowest : Speed := ofTable 5 true

/-- The velocities in order. -/
def velocities (s : Speed) : List Value := [s.tool, s.turn, s.linear, s.rotational]

/-- Whether all of some values are positive, up to the first that is not. -/
def allPositive : List Value → Outcome Bool
  | [] => .ok true
  | v :: vs => do if ← Value.less (.int 0) v then allPositive vs else return false

/-- Whether the speed has a name and positive velocities. -/
def isValid (s : Speed) : Outcome Bool :=
  if s.name.truthy then allPositive s.velocities else .ok false

/-- A copy, whose velocities are numbers. -/
def duplicate (s : Speed) : Outcome Speed := do
  let copy ← make s.name s.tool s.turn s.linear s.rotational
  return { copy with predefined := s.predefined, exact := s.exact }

/-- The speed in messages. -/
def text (s : Speed) : Outcome String := do
  if ← s.isValid then
    return (if s.predefined.truthy then "Predefined " else "Custom ") ++ kindText ++ " (" ++
      s.name.toText ++ ")"
  else return "Invalid " ++ kindText

/-- The velocities in program text. -/
def valueText (s : Speed) : Outcome String := do
  return Number.renderList Number.positionPlaces (← s.velocities.mapM Value.number)

/-- The declaration of a speed, empty for a predefined one. -/
def declaration (s : Speed) : Outcome String :=
  if s.predefined.truthy then .ok ""
  else do return "VAR speeddata " ++ s.name.toText ++ " := " ++ (← s.valueText) ++ ";"

/-- The speed as data. -/
def literal (s : Speed) : String :=
  "SpeedData(name=" ++ s.name.literal ++ ", v_tcp=" ++ s.tool.toText ++ ", v_ori=" ++
    s.turn.toText ++ ", v_leax=" ++ s.linear.toText ++ ", v_reax=" ++ s.rotational.toText ++
    ", predefined=" ++ s.predefined.toText ++ ")"

/-- The record of the speed. -/
def toRecord (s : Speed) : Value :=
  Record.make tag [("name", s.name), ("v_tcp", s.tool), ("v_ori", s.turn), ("v_leax", s.linear),
    ("v_reax", s.rotational), ("predefined", s.predefined), ("exact_predefined", .bool s.exact)]

/-- Whether the tool speed is in the table. -/
def inTable (s : Speed) : Bool := predefinedSpeeds.any fun n => s.tool.same (.int n)

/-- The speed of a record. -/
def ofRecord (v : Value) : Outcome Speed := do
  let es ← v.entries
  let _ ← Record.version tag es
  let name ← Record.required tag "name" es
  let tool ← Record.required tag "v_tcp" es
  let s ← make name tool (fieldD "v_ori" es defaultTurn) (fieldD "v_leax" es defaultLinear)
    (fieldD "v_reax" es defaultRotational)
  let predefined := (fieldD "predefined" es (.bool false)).truthy
  let exact := match field? "exact_predefined" es with
    | some e => e.truthy
    | none => predefined && s.inTable
  return { s with predefined := .bool predefined, exact }

end Speed

end RobotProgram
