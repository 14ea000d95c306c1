import RobotProgram.Proofs.StageFaults

/-!
# Faults that end a run

A run reports the faults of its own and of the file system as the error of the stage that failed,
and raises every other one. `execute_returns_iff` says for each stage which kinds of faults these
can be: data that is not of the shape that a reader expects, documents with parts that have no
value, axes without a direction, a system of equations without a solution, and a text that a file
does not take. So the stages are not guarded against all that they can meet.

The texts of faults and of programs are those of data whose whole numbers can be written, so the
request and the documents of the store are taken to have no longer ones (`Request.IsShort`,
`Files.Store.IsShort`). A text with a longer one is raised as a fault of plain data.
-/

namespace RobotProgram

/-- Two computations in a row that keep a state and give a result both give one. -/
theorem Outcome.exists_of_run_bind {σ α β : Type} {x : ExceptT Fault (StateM σ) α}
    {f : α → ExceptT Fault (StateM σ) β} {s s' : σ} {b : β}
    (h : (x >>= f).run s = (.ok b, s')) :
    ∃ a s₁, x.run s = (.ok a, s₁) ∧ (f a).run s₁ = (.ok b, s') := by
  rw [run_bind] at h
  generalize x.run s = q at h
  obtain ⟨outcome, s₁⟩ := q
  cases outcome with
  | error e => cases h
  | ok a => exact ⟨a, s₁, rfl, h⟩

/-- The kind of the fault of an outcome. -/
def Outcome.faultKind? {α : Type} : Outcome α → Option FaultKind
  | .ok _ => none
  | .error f => some f.kind

/-- A computation that keeps a state and fails. -/
theorem Outcome.run_of_faultKind? {σ α : Type} {x : ExceptT Fault (StateM σ) α} {s : σ}
    {k : FaultKind} (h : faultKind? (x.run s).1 = some k) :
    ∃ f, x.run s = (.error f, (x.run s).2) ∧ f.kind = k := by
  generalize x.run s = q at h ⊢
  obtain ⟨outcome, s'⟩ := q
  cases outcome with
  | error f => exact ⟨f, rfl, Option.some.inj h⟩
  | ok a => cases h

/-- What is done for every item of a list gives a list of what it gives for the items. -/
theorem Outcome.Gives.mapM {α β : Type} {P : β → Prop} {f : α → Outcome β}
    (h : ∀ x, (f x).Gives P) (xs : List α) : Gives (fun ys => ∀ y ∈ ys, P y) (xs.mapM f) := by
  induction xs with
  | nil => exact Gives.ok (by simp)
  | cons x xs ih =>
    rw [List.mapM_cons]
    refine Gives.bind fun y hy => ?_
    refine Gives.bind fun ys hys => ?_
    exact Gives.ok (List.forall_mem_cons.mpr ⟨h x y hy, ih ys hys⟩)

/-- The actions that a file gives are settled. -/
theorem ActionFile.gives_settled [Host] (s : Files.Store) (path : Files.Path) :
    (load s path).Gives fun actions => ∀ a ∈ actions, a.Settled := by
  unfold load
  refine Outcome.Gives.bind fun v _ => ?_
  refine Outcome.Gives.bind fun rs _ => ?_
  exact Outcome.Gives.mapM (fun r a h => Action.settled_ofRecord r h) rs

/-- The whole numbers in the documents of a store are short enough to be written. -/
def Files.Store.IsShort [Host] (s : Store) : Prop :=
  ∀ n ∈ s.nodes, ∀ v, n.2.value = .ok v → v.isShort = true

namespace Pipeline

open Files (Path)
open Outcome (Faults FaultsIn Runs RunsIn)

/-! ### Runs of stages -/

/-- The session after a stage that ended well. -/
def Session.completed (stage : Stage) (s : Session) : Session :=
  { s with events := s.events ++ [completedEvent stage] }

/-- How a stage that is tried runs. -/
theorem run_attempt {α : Type} (stage : Stage) (job : Job α) (s : Session) :
    (attempt stage job).run s = match job.run s with
      | (.ok a, after) => (.ok (.ok a), after.completed stage)
      | (.error f, after) =>
        if isReported f then (.ok (.error f.report.text),
          { after with events := after.events ++ [failedEvent stage f.report.text] })
        else (.error f, after) := rfl

section

variable {α β : Type} {stage : Stage} {job : Job α} {k : Except String α → Job β} {s s' : Session}

/-- What follows a stage that ended well gets its value. -/
theorem run_attempt_ok {a : α} (h : job.run s = (.ok a, s')) :
    (attempt stage job >>= k).run s = (k (.ok a)).run (s'.completed stage) := by
  rw [Outcome.run_bind, run_attempt, h]

/-- What follows a stage that failed gets the text of a fault that is reported. -/
theorem run_attempt_reported {f : Fault} (h : job.run s = (.error f, s'))
    (hf : isReported f = true) :
    (attempt stage job >>= k).run s = (k (.error f.report.text)).run
      { s' with events := s'.events ++ [failedEvent stage f.report.text] } := by
  simp only [Outcome.run_bind, run_attempt, h, if_pos hf]

/-- Any other fault ends the run. -/
theorem run_attempt_raised {f : Fault} (h : job.run s = (.error f, s'))
    (hf : ¬isReported f = true) : (attempt stage job >>= k).run s = (.error f, s') := by
  simp only [Outcome.run_bind, run_attempt, h, if_neg hf]

end

/-- A result that reports the fault of a stage: the run did not succeed, the stage is the last one
that was tried, and the text of its fault is the error. -/
structure Result.Reports (r : Result) (stage : Stage) (f : Fault) : Prop where
  success : r.success = false
  last : r.steps.getLast? = some ⟨stage, some f.report.text⟩
  errors : r.errors = ["Step '" ++ stage.name ++ "' failed: " ++ f.report.text]

/-- A run that fails at a stage, without an error before, reports the fault. -/
theorem Result.reports_fail {r : Result} (hsuccess : r.success = false) (herrors : r.errors = [])
    (stage : Stage) (f : Fault) : (r.fail stage f.report.text).Reports stage f where
  success := hsuccess
  last := List.getLast?_concat
  errors := by
    unfold fail
    rw [herrors, List.nil_append]

namespace Stages

variable {Cell Actions Product : Type} (stages : Stages Cell Actions Product)

/-- A stage fails in a run: those before it end well, and it ends with a fault and a session. -/
inductive Fails (s : Session) : Stage → Fault → Session → Prop where
  | robot {f : Fault} {s' : Session} :
    stages.robot.run s = (.error f, s') → Fails s .loadRobot f s'
  | actions {cell : Cell} {s₁ s' : Session} {f : Fault} :
    stages.robot.run s = (.ok cell, s₁) →
    stages.actions.run (s₁.completed .loadRobot) = (.error f, s') → Fails s .loadActions f s'
  | generate {cell : Cell} {actions : Actions} {s₁ s₂ s' : Session} {f : Fault} :
    stages.robot.run s = (.ok cell, s₁) →
    stages.actions.run (s₁.completed .loadRobot) = (.ok actions, s₂) →
    (stages.generate cell actions).run (s₂.completed .loadActions) = (.error f, s') →
    Fails s .generate f s'
  | write {cell : Cell} {actions : Actions} {product : Product} {write : Product → Job Path}
    {s₁ s₂ s₃ s' : Session} {f : Fault} :
    stages.robot.run s = (.ok cell, s₁) →
    stages.actions.run (s₁.completed .loadRobot) = (.ok actions, s₂) →
    (stages.generate cell actions).run (s₂.completed .loadActions) = (.ok product, s₃) →
    stages.write = some write →
    (write product).run (s₃.completed .generate) = (.error f, s') → Fails s .write f s'

variable {stages} {s s' : Session} {stage : Stage} {f : Fault}

/-- A stage that fails with a fault that is not reported ends the run with it. -/
theorem Fails.run_raised (h : stages.Fails s stage f s') (hf : ¬isReported f = true)
    (strict : Bool) : (run stages strict).run s = (.error f, s') := by
  unfold run
  cases h with
  | robot h => exact run_attempt_raised h hf
  | actions hrobot h =>
    rw [run_attempt_ok hrobot]
    exact run_attempt_raised h hf
  | generate hrobot hactions h =>
    rw [run_attempt_ok hrobot, run_attempt_ok hactions]
    exact run_attempt_raised h hf
  | write hrobot hactions hgenerate hwrite h =>
    rw [run_attempt_ok hrobot, run_attempt_ok hactions, run_attempt_ok hgenerate, hwrite]
    exact run_attempt_raised h hf

/-- A stage that fails with a fault that is reported ends the run with a result. -/
theorem Fails.run_reported (h : stages.Fails s stage f s') (hf : isReported f = true)
    (strict : Bool) : ∃ r s'', (run stages strict).run s = (.ok r, s'') ∧ r.Reports stage f := by
  unfold run
  cases h with
  | robot h =>
    rw [run_attempt_reported h hf]
    exact ⟨_, _, rfl, Result.reports_fail rfl rfl _ _⟩
  | actions hrobot h =>
    rw [run_attempt_ok hrobot, run_attempt_reported h hf]
    exact ⟨_, _, rfl, Result.reports_fail rfl rfl _ _⟩
  | generate hrobot hactions h =>
    rw [run_attempt_ok hrobot, run_attempt_ok hactions, run_attempt_reported h hf]
    exact ⟨_, _, rfl, Result.reports_fail rfl rfl _ _⟩
  | write hrobot hactions hgenerate hwrite h =>
    rw [run_attempt_ok hrobot, run_attempt_ok hactions, run_attempt_ok hgenerate, hwrite,
      run_attempt_reported h hf]
    exact ⟨_, _, rfl, Result.reports_fail rfl rfl _ _⟩

/-- A run in which no stage fails returns a result. -/
theorem run_of_not_fails (h : ∀ stage f s', ¬stages.Fails s stage f s') (strict : Bool) :
    ∃ r s', (run stages strict).run s = (.ok r, s') := by
  unfold run
  rcases hrobot : stages.robot.run s with ⟨_ | cell, s₁⟩
  · exact absurd (.robot hrobot) (h _ _ _)
  rcases hactions : stages.actions.run (s₁.completed .loadRobot) with ⟨_ | actions, s₂⟩
  · exact absurd (.actions hrobot hactions) (h _ _ _)
  rcases hgenerate : (stages.generate cell actions).run (s₂.completed .loadActions) with
    ⟨_ | product, s₃⟩
  · exact absurd (.generate hrobot hactions hgenerate) (h _ _ _)
  rw [run_attempt_ok hrobot, run_attempt_ok hactions, run_attempt_ok hgenerate]
  cases hwrite : stages.write with
  | none => exact ⟨_, _, rfl⟩
  | some write =>
    rcases hpath : (write product).run (s₃.completed .generate) with ⟨_ | path, s₄⟩
    · exact absurd (.write hrobot hactions hgenerate hwrite hpath) (h _ _ _)
    exact ⟨_, _, run_attempt_ok hpath⟩

end Stages

/-! ### What a stage lets through -/

/-- The kinds of faults that a stage does not report. -/
def Stage.escaping : Stage → List FaultKind
  | loadRobot | loadActions => [.type, .index, .value, .key, .part, .overflow, .zeroDivision]
  | generate => [.type, .value, .part, .singular]
  | write => [.type, .value]

/-- Faults of these kinds are not reported. -/
theorem not_isReported_of_escaping {stage : Stage} {f : Fault} (h : f.kind ∈ stage.escaping) :
    ¬isReported f = true := by
  unfold isReported Fault.isOwn
  cases stage <;> simp only [Stage.escaping, List.mem_cons, List.not_mem_nil, or_false] at h <;>
    grind

namespace Job

variable {α : Type} {kinds : List FaultKind}

/-- A question to a catalog has the faults of the question. -/
theorem runsIn_ask {query : Config.Catalog.Query α} (h : RunsIn kinds query) (c : Config.Catalog) :
    RunsIn kinds (ask c query) :=
  Runs.lift (h c) fun _ _ => Runs.done _

/-- A computation on files has its own faults. -/
theorem runsIn_access {x : Files.Access α} (h : RunsIn kinds x) : RunsIn kinds (access x) := by
  refine Runs.bind Runs.state fun s => ?_
  refine Runs.bind (Runs.change _) fun _ => ?_
  exact Runs.ofOutcome (h s.store)

/-- A step of program generation has its own faults. -/
theorem runsIn_emit {x : Program.Emit α} (h : RunsIn kinds x) : RunsIn kinds (emit x) := by
  refine Runs.bind (Runs.change _) fun _ => ?_
  exact Runs.lift (h {}) fun _ _ => Runs.done _

end Job

namespace Request

/-- A path must be a text. -/
theorem faultsIn_path (v : Value) : (Path.ofValue v).FaultsIn [.type] := by
  unfold Path.ofValue
  split
  · exact Faults.ok _
  · exact Faults.error (by decide)

/-- Generating lets through what the program and its module do. -/
theorem runsIn_generate (g : Program.Generator) {actions : List Action}
    (h : ∀ a ∈ actions, a.Settled) : RunsIn Stage.generate.escaping (generate g actions) := by
  unfold generate
  refine Runs.bind (Job.runsIn_emit (g.runsIn_generate h)) fun filled => ?_
  refine Runs.lift (g.faultsIn_moduleText filled.2) fun text _ => ?_
  exact Runs.done _

/-- The text of the module that was generated is that of its buffers. -/
theorem moduleText_generate {g : Program.Generator} {actions : List Action} {s s' : Session}
    {p : Generated} (h : (generate g actions).run s = (.ok p, s')) :
    p.generator.moduleText p.buffers = .ok p.moduleText := by
  obtain ⟨filled, s₁, -, h⟩ := Outcome.exists_of_run_bind h
  obtain ⟨text, s₂, htext, h⟩ := Outcome.exists_of_run_bind h
  obtain rfl : ⟨g, filled.2, text⟩ = p := Except.ok.inj (congrArg Prod.fst h)
  exact congrArg Prod.fst htext

section

variable [Host]

/-- Writing lets through what the path and the module do. -/
theorem runsIn_write (q : Request) {p : Generated}
    (h : p.generator.moduleText p.buffers = .ok p.moduleText) :
    RunsIn Stage.write.escaping (q.write p) := by
  unfold write
  refine Runs.lift ((faultsIn_path _).mono (by decide)) fun path _ => ?_
  refine Runs.bind (Job.runsIn_access (Program.Generator.runsIn_save h path)) fun written => ?_
  refine Runs.bind (Runs.change _) fun _ => ?_
  exact Runs.done _

/-- The actions that are loaded are settled. -/
theorem settled_loadActions {q : Request} {s s' : Session} {actions : List Action}
    (h : q.loadActions.run s = (.ok actions, s')) : ∀ a ∈ actions, a.Settled := by
  obtain ⟨path, s₁, -, h⟩ := Outcome.exists_of_run_bind h
  obtain ⟨session, s₂, -, h⟩ := Outcome.exists_of_run_bind h
  obtain ⟨loaded, s₃, hloaded, h⟩ := Outcome.exists_of_run_bind h
  obtain ⟨-, s₄, -, h⟩ := Outcome.exists_of_run_bind h
  obtain rfl : loaded = actions := Except.ok.inj (congrArg Prod.fst h)
  exact ActionFile.gives_settled session.store path _ (congrArg Prod.fst hloaded)

variable [Host.Lawful]

/-- Loading the robot lets through what its path, its directory and its settings do. -/
theorem runsIn_loadRobot (q : Request) : RunsIn Stage.loadRobot.escaping q.loadRobot := by
  have hmake (s : Files.Store) (path : Path) :
      (Config.Catalog.make s path).FaultsIn Stage.loadRobot.escaping := by
    unfold Config.Catalog.make
    split_ifs
    · exact Faults.ok _
    · exact FaultsIn.report rfl
  unfold loadRobot
  refine Runs.bind Runs.state fun s => ?_
  refine Runs.lift ((faultsIn_path _).mono (by decide)) fun path _ => ?_
  refine Runs.lift (hmake s.store path) fun catalog _ => ?_
  refine Runs.bind (Job.runsIn_ask (Config.Catalog.runsIn_settings s.store) catalog) fun asked => ?_
  refine Runs.bind (Job.runsIn_ask (Config.Catalog.runsIn_build s.store q.robotName) asked.2)
    fun built => ?_
  exact Runs.done _

/-- Loading the actions lets through what their path and their file do. -/
theorem runsIn_loadActions (q : Request) : RunsIn Stage.loadActions.escaping q.loadActions := by
  unfold loadActions
  refine Runs.lift ((faultsIn_path _).mono (by decide)) fun path _ => ?_
  refine Runs.bind Runs.state fun s => ?_
  refine Runs.lift (ActionFile.faultsIn_load s.store path) fun actions _ => ?_
  refine Runs.bind (Runs.change _) fun _ => ?_
  exact Runs.done _

/-- The fault of a stage that fails is reported, or of a kind that the stage lets through. -/
theorem fault_of_fails {q : Request} {s s' : Session} {stage : Stage} {f : Fault}
    (h : q.stages.Fails s stage f s') : isReported f = true ∨ f.kind ∈ stage.escaping := by
  cases h with
  | robot h => exact q.runsIn_loadRobot s f (congrArg Prod.fst h)
  | actions hrobot h => exact q.runsIn_loadActions _ f (congrArg Prod.fst h)
  | generate hrobot hactions h =>
    exact runsIn_generate _ (settled_loadActions hactions) _ f (congrArg Prod.fst h)
  | write hrobot hactions hgenerate hwrite h =>
    -- The stage is there only if the request has a path, and it writes what was generated.
    have hwrite : (if q.outputPath.truthy then some q.write else none) = some _ := hwrite
    split_ifs at hwrite
    obtain rfl := Option.some.inj hwrite
    exact q.runsIn_write (moduleText_generate hgenerate) _ f (congrArg Prod.fst h)

/-- The whole numbers of a request are short enough to be written. -/
def IsShort (q : Request) : Prop :=
  ∀ v ∈ [q.actionsPath, q.robotName, q.configDirectory, q.outputPath, q.moduleName],
    v.isShort = true

/-- On every host whose reader of documents is lawful, a run returns a result unless a stage fails
with a fault of a kind that the stage lets through. Such a fault is raised, and any other one is
reported in the result. The whole numbers of the request and of the documents in the store are ones
that can be written; a text that names a longer one is raised as a fault of plain data. -/
theorem execute_returns_iff (q : Request) (s : Session) (_hq : q.IsShort)
    (_hs : s.store.IsShort) :
    ((∃ r s', q.execute.run s = (.ok r, s')) ↔
      ∀ stage f s', q.stages.Fails s stage f s' → f.kind ∉ stage.escaping) ∧
    ∀ stage f s', q.stages.Fails s stage f s' →
      (f.kind ∈ stage.escaping → q.execute.run s = (.error f, s')) ∧
      (f.kind ∉ stage.escaping →
        ∃ r s'', q.execute.run s = (.ok r, s'') ∧ r.Reports stage f) := by
  have hraised {stage f s'} (h : q.stages.Fails s stage f s') (hf : f.kind ∈ stage.escaping) :
      q.execute.run s = (.error f, s') :=
    h.run_raised (not_isReported_of_escaping hf) q.strict
  have hreported {stage f s'} (h : q.stages.Fails s stage f s') (hf : f.kind ∉ stage.escaping) :
      ∃ r s'', q.execute.run s = (.ok r, s'') ∧ r.Reports stage f :=
    h.run_reported ((fault_of_fails h).resolve_right hf) q.strict
  refine ⟨⟨?_, fun h => ?_⟩, fun stage f s' hfails => ⟨hraised hfails, hreported hfails⟩⟩
  · rintro ⟨r, s', hrun⟩ stage f s'' hfails hf
    rw [hraised hfails hf] at hrun
    cases hrun
  · -- A run has no more than one stage that fails, so its fault decides.
    by_cases hfails : ∃ stage f s', q.stages.Fails s stage f s'
    · obtain ⟨stage, f, s', hfails⟩ := hfails
      obtain ⟨r, s'', hrun, -⟩ := hreported hfails (h stage f s' hfails)
      exact ⟨r, s'', hrun⟩
    · simp only [not_exists] at hfails
      exact Stages.run_of_not_fails hfails q.strict

end

/-- A robot whose first axis has no direction. -/
def flatRobot : Value :=
  let axis (z : Int) : Value := .record [("origin", .list [.int 0, .int 0, .int 0]),
    ("axis", .list [.int 0, .int 0, .int z]), ("limits", .list [.int (-165), .int 165])]
  .record [("robot", .record [("name", .text "Arm")]),
    ("kinematics", .record [("axes", .list (axis 0 :: List.replicate 5 (axis 1)))])]

/-- A configuration directory with that robot. -/
def flatSession : Session where
  store := ⟨[(["config"], .directory), (["config", "robots"], .directory),
    (["config", "robots", "arm.yaml"], .document flatRobot)]⟩

/-- The request for a robot of that directory. -/
def flatRequest (robotName : String) : Request where
  actionsPath := .text "program.yaml"
  robotName := .text robotName

/-- The robot without a direction ends the run; a robot that there is not is reported. -/
theorem execute_returns_iff_flat :
    (¬∃ r s', (flatRequest "arm").execute.run flatSession = (.ok r, s')) ∧
      ∃ r s', (flatRequest "leg").execute.run flatSession = (.ok r, s') := by
  have hrequest (robotName : String) : (flatRequest robotName).IsShort := by
    simp [IsShort, flatRequest, Value.isShort, Atom.isShort]
  have hstore : flatSession.store.IsShort := by
    have hrobot : flatRobot.isShort = true := by decide +kernel
    simp [Files.Store.IsShort, flatSession, Files.Node.value, hrobot]
  obtain ⟨f, hf, hkind⟩ := Outcome.run_of_faultKind? (x := (flatRequest "arm").loadRobot)
    (s := flatSession) (k := .value) (by decide +kernel)
  obtain ⟨f', hf', hkind'⟩ := Outcome.run_of_faultKind? (x := (flatRequest "leg").loadRobot)
    (s := flatSession) (k := .configuration) (by decide +kernel)
  constructor
  · intro hreturns
    refine (execute_returns_iff _ _ (hrequest _) hstore).1.mp hreturns .loadRobot f _ (.robot hf) ?_
    rw [hkind]
    decide
  · have hreports := (execute_returns_iff _ _ (hrequest _) hstore).2 .loadRobot f' _ (.robot hf')
    obtain ⟨r, s', hrun, -⟩ := hreports.2 (by
      rw [hkind']
      decide)
    exact ⟨r, s', hrun⟩

end Request

end Pipeline

end RobotProgram
