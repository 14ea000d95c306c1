import RobotProgram.Text.Upper
import RobotProgram.Value

/-!
# Log events

An event has a level, a name and values. Events raised inside a context also carry its values,
unless they have a value of that name themselves. A threshold names the least level that is shown.
-/

namespace RobotProgram

/-- How much an event matters. -/
inductive Level where
  | debug
  | info
  | warning
  | error
  | critical
deriving DecidableEq, Repr

namespace Level

/-- The name of a level. -/
def name : Level → String
  | debug => "debug"
  | info => "info"
  | warning => "warning"
  | error => "error"
  | critical => "critical"

/-- The rank of a level. -/
def rank : Level → Nat
  | debug => 10
  | info => 20
  | warning => 30
  | error => 40
  | critical => 50

/-- The level of a name, if there is one. -/
def ofName? (s : String) : Option Level :=
  [debug, info, warning, error, critical].find? fun l => l.name == s

/-- The least rank that a threshold shows; a name that is none shows information and more. -/
def threshold (name : String) : Nat :=
  match Text.upper name with
  | "NOTSET" => 0
  | "DEBUG" => debug.rank
  | "WARNING" | "WARN" => warning.rank
  | "ERROR" => error.rank
  | "CRITICAL" | "FATAL" => critical.rank
  | _ => info.rank

end Level

/-- A log event. -/
structure Event where
  level : Level
  name : String
  values : List (String × Value)

/-- Adds the values of a context that the event does not have. -/
def Event.within (context : List (String × Value)) (e : Event) : Event :=
  { e with values :=
      (context.filter fun c => !e.values.any fun v => v.1 == c.1) ++ e.values }

/-- Whether a threshold shows an event. -/
def Event.isShown (threshold : String) (e : Event) : Bool :=
  decide (Level.threshold threshold ≤ e.level.rank)

/-- The part of the program that logs an event. -/
def Event.source (e : Event) : String :=
  match e.name with
  | "actions_loaded" | "actions_written" => "rapidforge.actions.serialization"
  | "module_written" => "rapidforge.postprocessor.rapid"
  | "program_diagnostic" | "program_generated" => "rapidforge.postprocessor.base"
  | "axis_limits_violated" => "rapidforge.motion.limits"
  | "target_unreachable" | "target_resolved" => "rapidforge.motion.kinematics"
  | _ => "rapidforge.pipeline"

end RobotProgram
