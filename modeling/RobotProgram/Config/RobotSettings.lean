import RobotProgram.Cell.Robot
import RobotProgram.Config.Checked

/-!
# Robot settings

The settings that describe a robot cell: frames, axis lines with limits, the tool and the external
mechanisms. Checking reads them from plain data, `toValue` writes them with every default filled
in, and `build` makes the robot.
-/

namespace RobotProgram.Config

/-- A frame given by its point and the directions of its axes. -/
structure FrameSettings where
  point : Vector3 Float := .zero
  xaxis : Vector3 Float := .unitX
  yaxis : Vector3 Float := .unitY

/-- A robot axis in the zero pose, with its limits in degrees. -/
structure AxisSettings where
  origin : Vector3 Float
  axis : Vector3 Float
  limits : Interval Float

/-- An external mechanism. -/
structure MechanismSettings where
  name : String
  kind : MechanismKind
  number : Int
  logic : Option String
  frame : FrameSettings
  limits : Interval Float

/-- A tool. -/
structure ToolSettings where
  name : String := "tool0"
  attachment : FrameSettings := {}
  tip : FrameSettings := {}

/-- A robot cell. -/
structure RobotSettings where
  name : String
  manufacturer : String
  base : FrameSettings
  mounting : FrameSettings
  axes : List AxisSettings
  tool : ToolSettings
  mechanisms : List MechanismSettings

/-! ### Checking -/

/-- Checks three coordinates. -/
def coordinates : Check (Vector3 Float) := fun v =>
  (fun (x, y, z) => ⟨x, y, z⟩) <$> Check.triple v

/-- Checks the two bounds of an interval. -/
def bounds : Check (Interval Float) := fun v =>
  (fun (a, b) => ⟨a, b⟩) <$> Check.pair v

/-- Checks a frame. -/
def FrameSettings.check : Check FrameSettings :=
  Check.fields fun es =>
    FrameSettings.mk <$> Check.optional "point" .zero coordinates es
      <*> Check.optional "xaxis" .unitX coordinates es
      <*> Check.optional "yaxis" .unitY coordinates es

/-- Checks an axis. -/
def AxisSettings.check : Check AxisSettings :=
  Check.fields fun es =>
    AxisSettings.mk <$> Check.required "origin" coordinates es
      <*> Check.required "axis" coordinates es
      <*> Check.required "limits" bounds es

/-- Checks the name of a kind of mechanism. -/
def mechanismKind : Check MechanismKind
  | .text "linear" => pure .linear
  | .text "rotational" => pure .rotational
  | _ => .fail .choice

/-- Checks a mechanism. -/
def MechanismSettings.check : Check MechanismSettings :=
  Check.fields fun es =>
    MechanismSettings.mk <$> Check.required "name" Check.text es
      <*> Check.required "type" mechanismKind es
      <*> Check.optional "axis_number" 0 (Check.wholeBetween 0 5) es
      <*> Check.optional "axis_logic" none Check.text? es
      <*> Check.optional "frame" {} FrameSettings.check es
      <*> Check.required "limits" bounds es

/-- Checks a tool. -/
def ToolSettings.check : Check ToolSettings :=
  Check.fields fun es =>
    ToolSettings.mk <$> Check.optional "name" "tool0" Check.text es
      <*> Check.optional "attachment_frame" {} FrameSettings.check es
      <*> Check.optional "tool_frame" {} FrameSettings.check es

/-- Checks the axes, of which there are six. -/
def sixAxes : Check (List AxisSettings) := fun v =>
  (Check.list AxisSettings.check v).andThen fun axes =>
    if axes.length = 6 then pure axes else .fail .value

/-- Checks a robot. Axes that are left out are none. -/
def RobotSettings.check (es : List (Atom × Value)) : Checked RobotSettings :=
  RobotSettings.mk <$> Check.required "name" Check.text es
    <*> Check.optional "manufacturer" "ABB" Check.text es
    <*> Check.optional "base_frame" {} FrameSettings.check es
    <*> Check.optional "mounting_frame" {} FrameSettings.check es
    <*> Check.optional "axes" [] sixAxes es
    <*> Check.optional "tool" {} ToolSettings.check es
    <*> Check.optional "external_axes" [] (Check.list MechanismSettings.check) es

/-- The settings of a mapping, whose keys must be texts. -/
def RobotSettings.ofEntries (es : List (Atom × Value)) : Outcome RobotSettings :=
  if es.all fun e => e.1 matches .text _ then (RobotSettings.check es).outcome
  else .error .wrongType

/-! ### Settings as plain data -/

/-- An interval as a list. -/
def limitsValue (i : Interval Float) : Value := .list [.float i.start, .float i.stop]

/-- A frame as a record. -/
def FrameSettings.toValue (f : FrameSettings) : Value :=
  .record [("point", f.point.toValue), ("xaxis", f.xaxis.toValue), ("yaxis", f.yaxis.toValue)]

/-- An axis as a record. -/
def AxisSettings.toValue (a : AxisSettings) : Value :=
  .record [("origin", a.origin.toValue), ("axis", a.axis.toValue), ("limits", limitsValue a.limits)]

/-- A mechanism as a record. -/
def MechanismSettings.toValue (m : MechanismSettings) : Value :=
  .record [("name", .text m.name), ("type", .text m.kind.name), ("axis_number", .int m.number),
    ("axis_logic", m.logic.elim .null .text), ("frame", m.frame.toValue),
    ("limits", limitsValue m.limits)]

/-- A tool as a record. -/
def ToolSettings.toValue (t : ToolSettings) : Value :=
  .record [("name", .text t.name), ("attachment_frame", t.attachment.toValue),
    ("tool_frame", t.tip.toValue)]

/-- A robot as a record. -/
def RobotSettings.toValue (r : RobotSettings) : Value :=
  .record [("name", .text r.name), ("manufacturer", .text r.manufacturer),
    ("base_frame", r.base.toValue), ("mounting_frame", r.mounting.toValue),
    ("axes", .list (r.axes.map AxisSettings.toValue)), ("tool", r.tool.toValue),
    ("external_axes", .list (r.mechanisms.map MechanismSettings.toValue))]

/-! ### Building -/

/-- The frame of the settings. -/
def FrameSettings.build (f : FrameSettings) : Outcome (Frame Float) :=
  Frame.ofAxes f.point f.xaxis f.yaxis

/-- The frame of an axis. -/
def AxisSettings.build (a : AxisSettings) : Outcome (Frame Float) :=
  Frame.ofAxis a.origin a.axis

/-- The mechanism of the settings. -/
def MechanismSettings.build (m : MechanismSettings) : Outcome (Mechanism Float) := do
  return ⟨.text m.name, m.kind, ← m.frame.build, m.limits, m.number,
    axisLogic m.number (m.logic.elim .null .text)⟩

/-- The tool of the settings. -/
def ToolSettings.build (t : ToolSettings) : Outcome (Tool Float) := do
  return ⟨.text t.name, ← t.attachment.build, ← t.tip.build⟩

/-- The robot of the settings. -/
def RobotSettings.build (r : RobotSettings) : Outcome (Robot Float) := do
  let frames ← r.axes.mapM AxisSettings.build
  let base ← r.base.build
  let mounting ← r.mounting.build
  let tool ← r.tool.build
  let mechanisms ← r.mechanisms.mapM MechanismSettings.build
  Robot.make (.text r.name) frames (r.axes.map (·.limits)) base mounting tool mechanisms

end RobotProgram.Config
