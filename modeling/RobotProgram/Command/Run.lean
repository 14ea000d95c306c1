import RobotProgram.Command.Invocation
import RobotProgram.Pipeline.Run

/-!
# Running commands

A command prints texts and tables and ends with a status: zero if all went well, one if something is
wrong with the files, two if the command line makes no sense. It also ends with one if the output
does not take what it prints.

A message is printed as it is: marks inside it that a terminal writer reads as markup are left out.
A table is its cells, without the lines between them.
-/

namespace RobotProgram.Command

open Config (Catalog RobotSettings)
open Files (Path Store)
open Pipeline (Job Request Result)

/-- Something that is printed. -/
inductive Display where
  /-- A text with its line ends. -/
  | text (s : String)
  /-- A table: a title, a head and rows. -/
  | table (title : String) (head : List String) (rows : List (List String))

/-- A line of text. -/
def Display.line (s : String) : Display := .text (s ++ "\n")

/-- The texts of what is printed. -/
def Display.texts : Display → List String
  | .text s => [s]
  | .table title head rows => title :: head ++ rows.flatten

/-- How a command ends. -/
structure Reply where
  status : Nat
  output : List Display := []

/-- The reply to a command line that makes no sense. -/
def Reply.misuse : Reply := ⟨2, []⟩

/-- The reply of a command that failed. -/
def Reply.failure (output : List Display) : Reply := ⟨1, output⟩

/-- The reply of a command that succeeded. -/
def Reply.success (output : List Display) : Reply := ⟨0, output⟩

/-- Prints a reply on an output, which must take all of its texts. -/
def Reply.print [Host] (r : Reply) : Outcome Reply := do
  let _ ← (r.output.flatMap Display.texts).mapM (Host.encoded Host.outputTakes)
  return r

/-- The status with which a command line ends; a fault that no command answers is a failure. -/
def exitStatus : Outcome Reply → Nat
  | .ok reply => reply.status
  | .error _ => 1

/-- An error line. -/
def errorLine (message : String) : Display := .line ("✗ " ++ message)

/-- The table of diagnostics. -/
def diagnosticsTable (messages : List String) : Display :=
  .table "Diagnostics" ["#", "Message"]
    (messages.zipIdx.map fun (m, i) => [toString (i + 1), m])

/-- The table of diagnostics, if there are any. -/
def diagnosticsShown (messages : List String) : List Display :=
  if messages.isEmpty then [] else [diagnosticsTable messages]

/-! ### Programs -/

variable [Host]

/-- The reply to a run that generates a module. The module is printed as the output shows texts. -/
def generateReply (r : Result) : Reply :=
  let shown := diagnosticsShown r.diagnostics
  if !r.success then .failure (shown ++ r.errors.map errorLine)
  else
    match r.outputPath with
    | some path => .success (shown ++ [.line ("✓ Wrote " ++ path.text)])
    | none => .success (shown ++ [.text (Host.echoed (r.moduleText.getD ""))])

/-- The reply to a run that checks an action file: a diagnostic is a failure. -/
def checkReply (r : Result) : Reply :=
  if !r.success then .failure (r.errors.map errorLine)
  else if !r.diagnostics.isEmpty then
    .failure (diagnosticsShown r.diagnostics ++
      [.line ("⚠ " ++ toString r.diagnostics.length ++ " diagnostic(s)")])
  else .success [.line "✓ No diagnostics"]

/-- Whether something stands at the path of a text; a slash at its end asks for a directory. -/
def isThere (s : Store) (path : String) : Bool :=
  path != "" &&
    if path.endsWith "/" then s.isDirectory (Path.ofText path) else s.holds (Path.ofText path)

/-- A path in its plain form. -/
def pathValue (path : String) : Value := .text (Path.ofText path).text

/-- The request of a command on an action file. -/
def request (setting : Setting) (file robot : String) : Request :=
  { actionsPath := pathValue file
    robotName := .text robot
    configDirectory := pathValue setting.configDirectory }

/-- Runs a request on an action file, which must be there. -/
def runRequest (file : String) (q : Request) (reply : Result → Reply) : Job Reply := do
  if isThere (← get).store file then return reply (← q.execute)
  else return .misuse

/-! ### Configurations -/

/-- The value of a question to the catalog of a directory. -/
def ask {α : Type} (setting : Setting) (query : Store → Catalog.Query α) : Job α := do
  let store := (← get).store
  let catalog ← Catalog.make store (Path.ofText setting.configDirectory)
  let (a, _) ← Job.ask catalog (query store)
  return a

/-- Answers a fault of the program's own by an error line. -/
def orReply (about : String) (job : Job Reply) : Job Reply :=
  tryCatch job fun f =>
    if f.isOwn then return .failure [errorLine (about ++ ": " ++ f.report.text)] else throw f

/-- The robots of a catalog with their names. -/
def allRobots (store : Store) : Catalog.Query (List (String × RobotSettings)) := do
  (← Catalog.names store).mapM fun name => do return (name, ← Catalog.robot store (.text name))

/-- The reply that lists robots. -/
def robotsReply (robots : List (String × RobotSettings)) : Reply :=
  if robots.isEmpty then .success [.line "No robot configurations found."]
  else
    .success [.table "Available Robots" ["Name", "Robot", "Manufacturer", "External Axes"]
      (robots.map fun (name, r) => [name, r.name, r.manufacturer, toString r.mechanisms.length])]

/-- The rows of a robot's axes. -/
def axisRows (r : Robot Float) : List (List String) :=
  (r.axisLimits.toList.zipIdx.map fun (limits, i) =>
    [toString (i + 1), "internal", Number.table limits.min, Number.table limits.max]) ++
  r.mechanisms.map fun m =>
    [m.logic.toText ++ " (" ++ m.name.toText ++ ")", m.kind.name, Number.table m.limits.min,
      Number.table m.limits.max]

/-- The reply that shows a robot. -/
def robotReply (r : Robot Float) : Reply :=
  .success [.table ("Robot: " ++ r.name.toText ++ " (tool " ++ r.tool.name.toText ++ ")")
    ["Axis", "Type", "Min", "Max"] (axisRows r)]

/-! ### All commands -/

/-- Runs a command. -/
def Task.run (setting : Setting) : Task → Job Reply
  | .generate file robot output moduleName strict =>
    runRequest file
      { request setting file robot with
        outputPath := output.elim .null pathValue
        moduleName := moduleName.elim .null .text
        strict }
      generateReply
  | .check file robot => runRequest file (request setting file robot) checkReply
  | .listRobots =>
    orReply "Failed to list robots" do return robotsReply (← ask setting allRobots)
  | .showRobot name =>
    orReply "Failed to load robot" do
      return robotReply (← ask setting fun store => Catalog.build store (.text name))

/-- The line of the version. -/
def versionLine : String := "main, version 0.1.0"

/-- The reply to a command line. -/
def Invocation.reply : Invocation → Job Reply
  | .misuse => return .misuse
  | .help => return .success []
  | .version => return .success [.line versionLine]
  | .task setting t => t.run setting

/-- Answers a command line: its reply, printed. -/
def Invocation.run (i : Invocation) : Job Reply := do
  (← i.reply).print

/-- The events that a command line shows. -/
def Invocation.shownEvents (i : Invocation) (events : List Event) : List Event :=
  match i with
  | .task setting _ => events.filter (Event.isShown setting.logLevel)
  | _ => []

end RobotProgram.Command
