import RobotProgram.Files.Path
import RobotProgram.Log

/-!
# Results of a run

A run goes through stages in a fixed order and stops at the first that fails. Its result lists the
stages that were tried, what the program came to, and the errors.
-/

namespace RobotProgram.Pipeline

/-- The stages of a run, in order. -/
inductive Stage where
  | loadRobot
  | loadActions
  | generate
  | write
deriving DecidableEq, Repr

/-- The name of a stage. -/
def Stage.name : Stage → String
  | loadRobot => "load_robot"
  | loadActions => "load_actions"
  | generate => "generate"
  | write => "write"

/-- How a stage ended: well, or with an error. -/
structure StageReport where
  stage : Stage
  error : Option String
deriving DecidableEq, Repr

/-- A generated program: its module text and what is wrong with it. -/
structure Draft where
  moduleText : String
  diagnostics : List String
deriving DecidableEq, Repr

/-- What a run came to. -/
structure Result where
  success : Bool
  moduleText : Option String
  outputPath : Option Files.Path
  diagnostics : List String
  steps : List StageReport
  errors : List String
  /-- The stages whose duration was taken, in the order of the table that holds the durations. -/
  timings : List Stage
  /-- The last stage that ended well. -/
  completed : Option Stage
deriving DecidableEq, Repr

namespace Result

/-- The result before any stage. -/
def start : Result := ⟨false, none, none, [], [], [], [], none⟩

/-- The table of durations with that of a stage, which replaces one that is there. -/
def clock (stage : Stage) (timings : List Stage) : List Stage :=
  if stage ∈ timings then timings else timings ++ [stage]

/-- A stage ended well. -/
def complete (stage : Stage) (r : Result) : Result :=
  { r with
    steps := r.steps ++ [⟨stage, none⟩]
    timings := clock stage r.timings
    completed := some stage }

/-- A stage failed. -/
def fail (stage : Stage) (error : String) (r : Result) : Result :=
  { r with
    steps := r.steps ++ [⟨stage, some error⟩]
    timings := clock stage r.timings
    errors := r.errors ++ ["Step '" ++ stage.name ++ "' failed: " ++ error] }

/-- The program was generated. -/
def withDraft (d : Draft) (r : Result) : Result :=
  { r with moduleText := some d.moduleText, diagnostics := d.diagnostics }

/-- All stages ended well. A strict run succeeds only without diagnostics. -/
def finish (strict : Bool) (path : Option Files.Path) (r : Result) : Result :=
  if strict && !r.diagnostics.isEmpty then
    { r with
      outputPath := path
      errors := r.errors ++ [toString r.diagnostics.length ++ " diagnostic(s) in strict mode"] }
  else { r with outputPath := path, success := true }

/-- The progress that was reported: every stage that was tried begins, and ends if it ended well. -/
def progress (r : Result) : List (Stage × Bool) :=
  r.steps.flatMap fun s => (s.stage, false) :: if s.error.isNone then [(s.stage, true)] else []

end Result

end RobotProgram.Pipeline
