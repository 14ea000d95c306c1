import RobotProgram.Action.File
import RobotProgram.Config.Catalog
import RobotProgram.Pipeline.Result
import RobotProgram.Program.Save

/-!
# Runs

A run loads a robot and the settings of programs, loads actions, generates their program and, if a
path is given, writes the module. A fault of the program's own or of the file system ends the run
with a report; any other fault passes through.
-/

namespace RobotProgram.Pipeline

open Config (Catalog)
open Files (Path Store)
open Program (Buffers Generator Settings)

/-- The files that a run works on, and the events that were logged. -/
structure Session where
  store : Store
  events : List Event := []

/-- A part of a run. It may fail, and keeps what it did before. -/
abbrev Job := ExceptT Fault (StateM Session)

namespace Job

/-- Logs events. -/
def log (events : List Event) : Job Unit :=
  modify fun s => { s with events := s.events ++ events }

/-- A question to a catalog. -/
def ask {α : Type} (c : Catalog) (query : Catalog.Query α) : Job (α × Catalog) := do
  let (outcome, after) := query.run c
  return (← outcome, after)

/-- A computation on files. -/
def access {α : Type} (x : Files.Access α) : Job α := do
  let (outcome, store) := x.run (← get).store
  modify fun s => { s with store }
  outcome

/-- A step of program generation on empty buffers, with the buffers that it filled. -/
def emit {α : Type} (x : Program.Emit α) : Job (α × Buffers) := do
  let (outcome, run) := (x.run {} : Except Fault α × Program.Run)
  log run.events
  return (← outcome, run.buffers)

end Job

/-! ### Stages -/

/-- Whether a fault ends a run with a report. -/
def isReported (f : Fault) : Bool :=
  match f.kind with
  | .file _ => true
  | _ => f.isOwn

/-- The event of a stage that ended well. -/
def completedEvent (stage : Stage) : Event :=
  ⟨.info, "pipeline_step_complete", [("step", .text stage.name)]⟩

/-- The event of a stage that failed. -/
def failedEvent (stage : Stage) (error : String) : Event :=
  ⟨.error, "pipeline_step_failed", [("step", .text stage.name), ("error", .text error)]⟩

/-- Tries a stage: its value, or the text of the fault that it reports. -/
def attempt {α : Type} (stage : Stage) (job : Job α) : Job (Except String α) :=
  ExceptT.mk fun session =>
    match job.run session with
    | (.ok a, after) =>
      (.ok (.ok a), { after with events := after.events ++ [completedEvent stage] })
    | (.error f, after) =>
      if isReported f then
        let text := f.report.text
        (.ok (.error text), { after with events := after.events ++ [failedEvent stage text] })
      else (.error f, after)

/-- The stages of a run, where each gets what the ones before it made. -/
structure Stages (Cell Actions Product : Type) where
  robot : Job Cell
  actions : Job Actions
  generate : Cell → Actions → Job Product
  draft : Product → Draft
  /-- The last stage, if there is one. -/
  write : Option (Product → Job Path)

/-- Runs stages until one fails. -/
def run {Cell Actions Product : Type} (stages : Stages Cell Actions Product) (strict : Bool) :
    Job Result := do
  match ← attempt .loadRobot stages.robot with
  | .error e => return Result.start.fail .loadRobot e
  | .ok cell =>
    let r := Result.start.complete .loadRobot
    match ← attempt .loadActions stages.actions with
    | .error e => return r.fail .loadActions e
    | .ok actions =>
      let r := r.complete .loadActions
      match ← attempt .generate (stages.generate cell actions) with
      | .error e => return r.fail .generate e
      | .ok product =>
        let r := (r.withDraft (stages.draft product)).complete .generate
        match stages.write with
        | none => return r.finish strict none
        | some write =>
          match ← attempt .write (write product) with
          | .error e => return r.fail .write e
          | .ok path => return (r.complete .write).finish strict (some path)

/-! ### Requests -/

/-- What a run is asked to do. -/
structure Request where
  actionsPath : Value
  robotName : Value
  configDirectory : Value := .text "config"
  outputPath : Value := .null
  /-- The name of the module, where it is not the one of the settings. -/
  moduleName : Value := .null
  strict : Bool := false

/-- The fields of a request. -/
def Request.fields : List String :=
  ["actions_path", "robot_name", "config_dir", "output_path", "module_name", "strict"]

/-- The request of a mapping: two fields are required, and no other than the known ones is
allowed. -/
def Request.ofEntries (es : List (Atom × Value)) : Outcome Request :=
  match field? "actions_path" es, field? "robot_name" es with
  | some actionsPath, some robotName =>
    if es.all fun e => Request.fields.any fun name => e.1.same (.text name) then
      .ok {
        actionsPath, robotName
        configDirectory := fieldD "config_dir" es (.text "config")
        outputPath := fieldD "output_path" es .null
        moduleName := fieldD "module_name" es .null
        strict := (fieldD "strict" es (.bool false)).truthy }
    else .error .wrongType
  | _, _ => .error .wrongType

namespace Request

variable [Host]

/-- Loads the robot and the settings of programs. -/
def loadRobot (q : Request) : Job Generator := do
  let store := (← get).store
  let catalog ← Catalog.make store (← Path.ofValue q.configDirectory)
  let (settings, catalog) ← Job.ask catalog (Catalog.settings store)
  let settings :=
    if q.moduleName.truthy then { settings with moduleName := q.moduleName } else settings
  let (robot, _) ← Job.ask catalog (Catalog.build store q.robotName)
  return ⟨robot, settings⟩

/-- Loads the actions. -/
def loadActions (q : Request) : Job (List Action) := do
  let path ← Path.ofValue q.actionsPath
  let actions ← ActionFile.load (← get).store path
  Job.log [ActionFile.loaded path actions]
  return actions

/-- A generator with the buffers that it filled and the text of its module. -/
structure Generated where
  generator : Generator
  buffers : Buffers
  moduleText : String

/-- Generates the program of the actions. -/
def generate (g : Generator) (actions : List Action) : Job Generated := do
  let (_, buffers) ← Job.emit (g.generate actions)
  return ⟨g, buffers, ← g.moduleText buffers⟩

/-- Writes the module. -/
def write (q : Request) (p : Generated) : Job Path := do
  let path ← Job.access (p.generator.save p.buffers (← Path.ofValue q.outputPath))
  Job.log [Generator.saved p.buffers path]
  return path

/-- The stages of a request; the module is written if a path is given. -/
def stages (q : Request) : Stages Generator (List Action) Generated where
  robot := q.loadRobot
  actions := q.loadActions
  generate := generate
  draft p := ⟨p.moduleText, p.buffers.errors⟩
  write := if q.outputPath.truthy then some q.write else none

/-- Does what a request asks for. -/
def execute (q : Request) : Job Result := run q.stages q.strict

end Request

end RobotProgram.Pipeline
