import RobotProgram.Proofs.Escapes

/-!
# What a result says about a run

The fields of a result are set at different places: the list of stages and the table of durations
after each stage, the program by the stage that generates it, the path, the success and the error of
a strict run at the end. `result_consistent` says that they agree with one another and with what the
stages came to, whichever stage fails and whatever the stages give.

While the stages end well, a result is known from the stages that are done and the program that was
generated (`Result.after`). A run then ends in one of two ways: a stage fails (`Consistent.fail`),
or all of them end well (`Consistent.finish`).
-/

namespace RobotProgram.Pipeline

open Files (Path)

/-- The report of a stage that ended well. -/
def StageReport.passed (stage : Stage) : StageReport := ⟨stage, none⟩

/-- The stages of reports are those that were passed. -/
theorem StageReport.map_stage_passed (done : List Stage) :
    (done.map passed).map (·.stage) = done := by
  rw [List.map_map]
  exact List.map_id done

/-- A stage is reported as passed if it was. -/
theorem StageReport.passed_mem_map {stage : Stage} {done : List Stage} :
    passed stage ∈ done.map passed ↔ stage ∈ done := by
  simp [passed]

namespace Result

/-- A result agrees with itself, for a run that was to go through some stages. -/
structure Consistent (r : Result) (plan : List Stage) (strict : Bool) : Prop where
  /-- The stages that were tried are the first ones of the plan. -/
  tried : r.steps.map (·.stage) <+: plan
  /-- Only the last of them may have failed. -/
  early : ∀ step ∈ r.steps.dropLast, step.error = none
  completed : r.completed = (r.steps.filter (·.error.isNone)).getLast?.map (·.stage)
  timings : r.timings = r.steps.map (·.stage)
  moduleText : r.moduleText.isSome = true ↔ .passed .generate ∈ r.steps
  diagnostics : r.moduleText = none → r.diagnostics = []
  outputPath : r.outputPath.isSome = true ↔ .passed .write ∈ r.steps
  success : r.success = true ↔
    r.steps = plan.map .passed ∧ ¬(strict = true ∧ r.diagnostics ≠ [])
  /-- There is no error if the run succeeded, and else one. -/
  errors : r.errors.length = if r.success then 0 else 1

/-- A result shows a program and the path that it was written to, if there are any. -/
structure Shows (r : Result) (draft : Option Draft) (path : Option Path) : Prop where
  moduleText : r.moduleText = draft.map (·.moduleText)
  diagnostics : r.diagnostics = draft.elim [] (·.diagnostics)
  outputPath : r.outputPath = path

/-! ### While the stages end well -/

/-- The result after stages that ended well, with the program that they generated. -/
def after (done : List Stage) (draft : Option Draft) : Result where
  success := false
  moduleText := draft.map (·.moduleText)
  outputPath := none
  diagnostics := draft.elim [] (·.diagnostics)
  steps := done.map .passed
  errors := []
  timings := done
  completed := done.getLast?

/-- Without a program there are no diagnostics. -/
theorem diagnostics_after (done : List Stage) {draft : Option Draft}
    (h : (after done draft).moduleText = none) : (after done draft).diagnostics = [] := by
  obtain rfl : draft = none := Option.map_eq_none_iff.mp h
  rfl

/-- A result has a module as soon as there is a draft. -/
theorem isSome_moduleText_after (done : List Stage) (draft : Option Draft) :
    (after done draft).moduleText.isSome = draft.isSome := Option.isSome_map

/-- The last of the stages that ended well, among reports of which only others failed. -/
theorem getLast?_passed (done : List Stage) {failed : List StageReport}
    (hfailed : ∀ step ∈ failed, step.error ≠ none) :
    ((done.map StageReport.passed ++ failed).filter (·.error.isNone)).getLast?.map (·.stage) =
      done.getLast? := by
  have hpassed : (done.map StageReport.passed).filter (·.error.isNone) =
      done.map StageReport.passed :=
    List.filter_eq_self.mpr (by simp [StageReport.passed])
  have hrest : failed.filter (·.error.isNone) = [] :=
    List.filter_eq_nil_iff.mpr (by simpa using hfailed)
  rw [List.filter_append, hpassed, hrest, List.append_nil, ← List.getLast?_map,
    StageReport.map_stage_passed]

/-! ### The end of a run -/

/-- A stage fails after others that ended well. -/
theorem Consistent.fail {plan : List Stage} {stage : Stage} (done : List Stage)
    (draft : Option Draft) (hplan : done ++ [stage] <+: plan) (hnew : stage ∉ done)
    (hdraft : draft.isSome = true ↔ .generate ∈ done) (hwrite : .write ∉ done) (error : String)
    (strict : Bool) : ((after done draft).fail stage error).Consistent plan strict := by
  have hsteps : ((after done draft).fail stage error).steps =
      done.map .passed ++ [⟨stage, some error⟩] := rfl
  have hstages : ((after done draft).fail stage error).steps.map (·.stage) = done ++ [stage] := by
    rw [hsteps, List.map_append, StageReport.map_stage_passed]
    rfl
  have hmem (other : Stage) :
      .passed other ∈ ((after done draft).fail stage error).steps ↔ other ∈ done := by
    simp [hsteps, StageReport.passed]
  constructor
  case tried => rwa [hstages]
  case early =>
    rw [hsteps, List.dropLast_concat]
    simp [StageReport.passed]
  case completed => exact (getLast?_passed done (by simp)).symm
  case timings => exact (if_neg hnew).trans hstages.symm
  case moduleText => rw [hmem, ← hdraft, ← isSome_moduleText_after done draft]; rfl
  case diagnostics => exact diagnostics_after done
  case outputPath => exact iff_of_false Bool.false_ne_true (mt (hmem .write).mp hwrite)
  case success =>
    -- The stage that failed is not among those that ended well.
    refine iff_of_false Bool.false_ne_true fun h => ?_
    have hfailed : ⟨stage, some error⟩ ∈ plan.map StageReport.passed := by
      rw [← h.1, hsteps]
      simp
    simp [StageReport.passed] at hfailed
  case errors => rfl

section

variable (r : Result) (strict : Bool) (path : Option Path)

/-- Finishing keeps the reports of the stages. -/
theorem steps_finish : (r.finish strict path).steps = r.steps := by
  unfold finish
  split <;> rfl

/-- Finishing keeps the stages that were timed. -/
theorem timings_finish : (r.finish strict path).timings = r.timings := by
  unfold finish
  split <;> rfl

/-- Finishing keeps the last stage that ended well. -/
theorem completed_finish : (r.finish strict path).completed = r.completed := by
  unfold finish
  split <;> rfl

/-- Finishing keeps the module. -/
theorem moduleText_finish : (r.finish strict path).moduleText = r.moduleText := by
  unfold finish
  split <;> rfl

/-- Finishing keeps the diagnostics. -/
theorem diagnostics_finish : (r.finish strict path).diagnostics = r.diagnostics := by
  unfold finish
  split <;> rfl

/-- Finishing sets the path of the output. -/
theorem outputPath_finish : (r.finish strict path).outputPath = path := by
  unfold finish
  split <;> rfl

variable {r}

/-- A result that is finished shows its draft, and the file that was written. -/
theorem Shows.finish {draft : Option Draft} (h : r.Shows draft none) :
    (r.finish strict path).Shows draft path where
  moduleText := (moduleText_finish r strict path).trans h.moduleText
  diagnostics := (diagnostics_finish r strict path).trans h.diagnostics
  outputPath := outputPath_finish r strict path

end

/-- A run in which all stages end well succeeds, unless it is strict and there are diagnostics. -/
theorem success_finish (r : Result) (hr : r.success = false) (strict : Bool)
    (path : Option Path) :
    (r.finish strict path).success = true ↔ ¬(strict = true ∧ r.diagnostics ≠ []) := by
  unfold finish
  split_ifs with h
  · simpa [hr] using h
  · simpa using h

/-- All stages end well. -/
theorem Consistent.finish (plan : List Stage) (draft : Option Draft) {path : Option Path}
    (hdraft : draft.isSome = true ↔ .generate ∈ plan)
    (hpath : path.isSome = true ↔ .write ∈ plan) (strict : Bool) :
    ((after plan draft).finish strict path).Consistent plan strict := by
  have hsteps : ((after plan draft).finish strict path).steps = plan.map .passed :=
    steps_finish _ _ _
  constructor
  case tried => simp only [hsteps, StageReport.map_stage_passed, List.prefix_rfl]
  case early =>
    intro step hstep
    rw [hsteps] at hstep
    obtain ⟨stage, -, rfl⟩ := List.mem_map.mp (List.dropLast_subset _ hstep)
    rfl
  case completed =>
    rw [hsteps, completed_finish, ← List.append_nil (plan.map _), getLast?_passed plan (by simp)]
    rfl
  case timings =>
    rw [hsteps, timings_finish, StageReport.map_stage_passed]
    rfl
  case moduleText =>
    rw [hsteps, moduleText_finish, StageReport.passed_mem_map, ← hdraft, isSome_moduleText_after]
  case diagnostics =>
    rw [moduleText_finish, diagnostics_finish]
    exact diagnostics_after plan
  case outputPath => rw [hsteps, outputPath_finish, StageReport.passed_mem_map, hpath]
  case success =>
    rw [success_finish _ rfl, diagnostics_finish]
    exact (and_iff_right hsteps).symm
  case errors =>
    unfold Result.finish
    split <;> rfl

end Result

namespace Stages

variable {Cell Actions Product : Type}

/-- The program that the stages of a run generate, if they get that far, and the session then. -/
def generated? (stages : Stages Cell Actions Product) (s : Session) : Option (Product × Session) :=
  match stages.robot.run s with
  | (.ok cell, s₁) =>
    match stages.actions.run (s₁.completed .loadRobot) with
    | (.ok actions, s₂) =>
      match (stages.generate cell actions).run (s₂.completed .loadActions) with
      | (.ok product, s₃) => some (product, s₃.completed .generate)
      | (.error _, _) => none
    | (.error _, _) => none
  | (.error _, _) => none

/-- The path that the program of a run is written to, if it is. -/
def written? (stages : Stages Cell Actions Product) (s : Session) : Option Path := do
  let (product, s₃) ← stages.generated? s
  let write ← stages.write
  match (write product).run s₃ with
  | (.ok path, _) => some path
  | (.error _, _) => none

/-- The program of a run with what is wrong with it. -/
def draft? (stages : Stages Cell Actions Product) (s : Session) : Option Draft :=
  (stages.generated? s).map fun p => stages.draft p.1

variable {stages : Stages Cell Actions Product} {strict : Bool} {s s' : Session} {r : Result}

/-- In a run that returns a result, a stage fails only with a fault that is reported. -/
theorem Fails.isReported_of_run {stage : Stage} {f : Fault} {s₁ : Session}
    (h : stages.Fails s stage f s₁) (hrun : (run stages strict).run s = (.ok r, s')) :
    isReported f = true := by
  by_contra hf
  cases hrun.symm.trans (h.run_raised hf strict)

end Stages

/-- The stages that a request asks for: the module is written if a path is given. -/
def Request.plan (q : Request) : List Stage :=
  [.loadRobot, .loadActions, .generate] ++ if q.outputPath.truthy then [.write] else []

namespace Request

variable {Cell Actions Product : Type} {stages : Stages Cell Actions Product} {s : Session}

/-- A run whose faults are all reported ends after the first stages of its plan, with a stage that
fails or with the last stage, and with the program that was generated till then. -/
theorem exists_result (q : Request) (hwrite : stages.write.isSome = q.outputPath.truthy)
    (hreported : ∀ stage f s', stages.Fails s stage f s' → isReported f = true) :
    ∃ r s', (run stages q.strict).run s = (.ok r, s') ∧ r.Consistent q.plan q.strict ∧
      r.Shows (stages.draft? s) (stages.written? s) := by
  have hplan : q.plan = [.loadRobot, .loadActions, .generate] ++
      if stages.write.isSome then [.write] else [] := by
    rw [hwrite]
    rfl
  unfold run
  rcases hrobot : stages.robot.run s with ⟨f | cell, s₁⟩
  · rw [run_attempt_reported hrobot (hreported _ _ _ (.robot hrobot))]
    have hgenerated : stages.generated? s = none := by rw [Stages.generated?, hrobot]
    rw [Stages.draft?, Stages.written?, hgenerated]
    exact ⟨_, _, rfl, .fail [] none (by simp [hplan]) (by simp) (by simp) (by simp) _ _,
      ⟨rfl, rfl, rfl⟩⟩
  rcases hactions : stages.actions.run (s₁.completed .loadRobot) with ⟨f | actions, s₂⟩
  · rw [run_attempt_ok hrobot,
      run_attempt_reported hactions (hreported _ _ _ (.actions hrobot hactions))]
    have hgenerated : stages.generated? s = none := by
      simp only [Stages.generated?, hrobot, hactions]
    rw [Stages.draft?, Stages.written?, hgenerated]
    exact ⟨_, _, rfl, .fail [.loadRobot] none (by simp [hplan]) (by simp) (by simp) (by simp) _ _,
      ⟨rfl, rfl, rfl⟩⟩
  rcases hgenerate : (stages.generate cell actions).run (s₂.completed .loadActions) with
    ⟨f | product, s₃⟩
  · rw [run_attempt_ok hrobot, run_attempt_ok hactions,
      run_attempt_reported hgenerate (hreported _ _ _ (.generate hrobot hactions hgenerate))]
    have hgenerated : stages.generated? s = none := by
      simp only [Stages.generated?, hrobot, hactions, hgenerate]
    rw [Stages.draft?, Stages.written?, hgenerated]
    exact ⟨_, _, rfl, .fail [.loadRobot, .loadActions] none (by simp [hplan]) (by simp) (by simp)
      (by simp) _ _, ⟨rfl, rfl, rfl⟩⟩
  have hgenerated : stages.generated? s = some (product, s₃.completed .generate) := by
    simp only [Stages.generated?, hrobot, hactions, hgenerate]
  rw [run_attempt_ok hrobot, run_attempt_ok hactions, run_attempt_ok hgenerate, Stages.draft?,
    Stages.written?, hgenerated]
  cases hlast : stages.write with
  | none =>
    have hplan : q.plan = [.loadRobot, .loadActions, .generate] := by simp [hplan, hlast]
    rw [hplan]
    exact ⟨_, _, rfl, .finish [.loadRobot, .loadActions, .generate] (some (stages.draft product))
      (by simp) (by simp) _, .finish _ _ ⟨rfl, rfl, rfl⟩⟩
  | some write =>
    have hplan : q.plan = [.loadRobot, .loadActions, .generate, .write] := by simp [hplan, hlast]
    simp only [hplan, Option.map_some, Option.bind_eq_bind, Option.bind_some]
    rcases hpath : (write product).run (s₃.completed .generate) with ⟨f | path, s₄⟩
    · rw [run_attempt_reported hpath
        (hreported _ _ _ (.write hrobot hactions hgenerate hlast hpath))]
      exact ⟨_, _, rfl, .fail [.loadRobot, .loadActions, .generate] (some (stages.draft product))
        (by simp) (by simp) (by simp) (by simp) _ _, ⟨rfl, rfl, rfl⟩⟩
    · rw [run_attempt_ok hpath]
      exact ⟨_, _, rfl, .finish [.loadRobot, .loadActions, .generate, .write]
        (some (stages.draft product)) (by simp) (by simp) _, .finish _ _ ⟨rfl, rfl, rfl⟩⟩

/-- Whatever the stages of a request do, each giving something or failing with a fault that is
reported, the run returns a result that agrees with itself and with what the stages came to. -/
theorem result_consistent (q : Request) (stages : Stages Cell Actions Product)
    (hwrite : stages.write.isSome = q.outputPath.truthy) (s : Session)
    (hreported : ∀ stage f s', stages.Fails s stage f s' → isReported f = true) :
    ∃ r s', (run stages q.strict).run s = (.ok r, s') ∧ r.Consistent q.plan q.strict ∧
      (∀ stage f s'', stages.Fails s stage f s'' → r.Reports stage f) ∧
      r.Shows (stages.draft? s) (stages.written? s) := by
  obtain ⟨r, s', hrun, hconsistent, hshows⟩ := exists_result q hwrite hreported
  refine ⟨r, s', hrun, hconsistent, fun stage f s'' hfails => ?_, hshows⟩
  obtain ⟨r', s₁, hrun', hreports⟩ := hfails.run_reported (hreported stage f s'' hfails) q.strict
  rw [hrun] at hrun'
  obtain ⟨⟨rfl⟩, rfl⟩ := hrun'
  exact hreports

/-- A document for a robot whose axes all go up. -/
def uprightRobot : Value :=
  let axis : Value := .record [("origin", .list [.int 0, .int 0, .int 0]),
    ("axis", .list [.int 0, .int 0, .int 1]), ("limits", .list [.int (-165), .int 165])]
  .record [("robot", .record [("name", .text "Arm")]),
    ("kinematics", .record [("axes", .list (List.replicate 6 axis))])]

/-- A document with a single action, which waits for a time. -/
def waitFile (duration : Int) : Value :=
  .record [("actions", .list [.record [("type", .text "WaitTime"), ("version", .int 2001000),
    ("duration", .int duration)]])]

/-- A directory with that robot, a file of a time to wait for, and one of a time that is not. -/
def uprightSession : Session where
  store := ⟨[(["config"], .directory), (["config", "robots"], .directory),
    (["config", "robots", "arm.yaml"], .document uprightRobot),
    (["good.yaml"], .document (waitFile 1)), (["bad.yaml"], .document (waitFile (-1)))]⟩

/-- The request for a program of that robot. -/
def uprightRequest (file : String) : Request where
  actionsPath := .text file
  robotName := .text "arm"
  outputPath := .text "out.mod"
  strict := true

/-- A strict run writes a program and fails by a diagnostic. -/
theorem result_consistent_upright :
    ∃ r s', (uprightRequest "bad.yaml").execute.run uprightSession = (.ok r, s') ∧
      r.Consistent [.loadRobot, .loadActions, .generate, .write] true ∧
      r.Shows ((uprightRequest "bad.yaml").stages.draft? uprightSession)
        ((uprightRequest "bad.yaml").stages.written? uprightSession) := by
  obtain ⟨_, hr⟩ := Outcome.run_of_isOk (x := (uprightRequest "bad.yaml").execute)
    (s := uprightSession) (by decide +kernel)
  obtain ⟨r, s', hrun, hconsistent, -, hshows⟩ := result_consistent (uprightRequest "bad.yaml")
    (uprightRequest "bad.yaml").stages rfl uprightSession
    fun stage f s' hfails => hfails.isReported_of_run hr
  exact ⟨r, s', hrun, hconsistent, hshows⟩

end Request

end RobotProgram.Pipeline
