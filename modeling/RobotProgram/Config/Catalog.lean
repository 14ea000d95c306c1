import RobotProgram.Config.RobotSettings
import RobotProgram.Files.Content
import RobotProgram.Program.Settings

/-!
# Configuration catalogs

A configuration directory holds robots, one to a file, and the settings of programs. A catalog reads
all of them at its first question. A reading that fails leaves the catalog unloaded, though the
robots that were read before the failure stay in its table.
-/

namespace RobotProgram.Config

open Files (Path Store)

/-- What is known of a configuration directory. -/
structure Catalog where
  directory : Path
  robots : List (String × RobotSettings) := []
  /-- The settings of programs as they were read. -/
  program : Value := .map []
  loaded : Bool := false

namespace Catalog

/-- The catalog of a directory, which must be there. -/
def make (s : Store) (directory : Path) : Outcome Catalog :=
  if s.holds directory then .ok { directory } else .error (.noConfigDirectory directory.text)

/-! ### Files -/

/-- The robot of a file's content: the robot's own section, to which the kinematics are added, with
its tool and its external axes. -/
def robotEntries (es : List (Atom × Value)) (robot : Value) : Outcome (List (Atom × Value)) := do
  let own ← robot.mapping
  let own ← match field? "kinematics" es with
    | some v => Value.extend own v
    | none => pure own
  let own := match field? "tool" es with
    | some v => insertEntry (.text "tool") v own
    | none => own
  return match field? "external_axes" es with
    | some v => insertEntry (.text "external_axes") (if v.truthy then v else .list []) own
    | none => own

/-- The robot that a document describes, if it has a robot section. -/
def robotOf (v : Value) : Outcome (Option RobotSettings) := do
  if !v.truthy then return none
  if !(← v.mentions "robot") then return none
  match v with
  | .map es => return some (← RobotSettings.ofEntries (← robotEntries es (fieldD "robot" es .null)))
  | _ => .error .wrongType

/-- Faults of a document or of settings, as faults of the robot's file. -/
def robotFault (file : Path) : Fault → Fault
  | .unreadableDocument => .robotFile file.text []
  | .invalidSettings issues => .robotFile file.text issues
  | f => f

variable [Host]

/-- The robot in a file. -/
def readRobot (s : Store) (file : Path) : Outcome (Option RobotSettings) :=
  (s.value file >>= robotOf).mapError (robotFault file)

/-- The files of robots, in the order of their names. -/
def robotFiles (s : Store) (directory : Path) : List Path :=
  let robots := directory.child "robots"
  ((s.namesIn robots).filter fun name => name.endsWith ".yaml").map robots.child

/-- The settings of programs in a document: a section of their own, or the whole. -/
def programOf (v : Value) : Outcome Value := do
  let es ← (if v.truthy then v else .map []).entries
  return fieldD "generator" es (.map es)

/-- A document that cannot be read, as a fault of the file of program settings. -/
def programFault (file : Path) : Fault → Fault
  | .unreadableDocument => .generatorFile file.text
  | f => f

/-- The settings of programs in a directory, if there are any. -/
def readProgram (s : Store) (directory : Path) : Outcome (Option Value) := do
  let file := directory.child "generator.yaml"
  if s.holds file then return some (← programOf (← (s.value file).mapError (programFault file)))
  else return none

/-! ### Questions -/

/-- A question to a catalog, which keeps what it learned when it fails. -/
abbrev Query := ExceptT Fault (StateM Catalog)

/-- Puts a robot into the table, in its place if the name is there. -/
def setRobot (name : String) (robot : RobotSettings) :
    List (String × RobotSettings) → List (String × RobotSettings)
  | [] => [(name, robot)]
  | (n, r) :: rest =>
    if n == name then (name, robot) :: rest else (n, r) :: setRobot name robot rest

/-- Reads the robots of files. -/
def loadRobots (s : Store) : List Path → Query Unit
  | [] => return
  | file :: rest => do
    match ← readRobot s file with
    | some robot => modify fun c => { c with robots := setRobot file.stem robot c.robots }
    | none => pure ()
    loadRobots s rest

/-- Reads the whole directory. -/
def load (s : Store) : Query Unit := do
  let directory := (← get).directory
  loadRobots s (robotFiles s directory)
  match ← readProgram s directory with
  | some v => modify fun c => { c with program := v }
  | none => pure ()
  modify fun c => { c with loaded := true }

/-- Reads the directory unless it was read. -/
def ensureLoaded (s : Store) : Query Unit := do
  if !(← get).loaded then load s

/-- The names of the robots. -/
def names (s : Store) : Query (List String) := do
  ensureLoaded s
  return (← get).robots.map (·.1)

/-- The robot of a name in a table. -/
def find (robots : List (String × RobotSettings)) (name : Value) : Outcome RobotSettings :=
  match name with
  | .atom a =>
    match robots.find? fun r => (Atom.text r.1).same a with
    | some r => .ok r.2
    | none => .error (.unknownRobot name (robots.map (·.1)))
  | _ => .error .wrongType

/-- The settings of a robot. -/
def robot (s : Store) (name : Value) : Query RobotSettings := do
  ensureLoaded s
  find (← get).robots name

/-- A robot, built. -/
def build (s : Store) (name : Value) : Query (Robot Float) := do
  (← robot s name).build

/-- The settings of programs. -/
def settings (s : Store) : Query Program.Settings := do
  ensureLoaded s
  return .ofEntries (← (← get).program.mapping)

end Catalog

end RobotProgram.Config
