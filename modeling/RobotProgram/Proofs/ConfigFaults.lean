import RobotProgram.Proofs.DocumentFaults

/-!
# Which faults configurations can meet

A configuration that is read lets through data that is not of the shape that a reader expects, and
axes without a direction; faults of its files and of its settings are reported. `RunsIn` and
`RunKindsIn` say this of computations that keep a state, as `FaultsIn` and `KindsIn` do of outcomes.
-/

namespace RobotProgram

open Pipeline (isReported)
open Outcome (Faults FaultsIn KindsIn)

namespace Outcome

variable {σ α β : Type} {P : Fault → Prop} {kinds : List FaultKind}

/-- The faults of a computation that keeps a state have a property, whichever state it starts
from. -/
def Runs (P : Fault → Prop) (x : ExceptT Fault (StateM σ) α) : Prop := ∀ s, Faults P (x.run s).1

/-- The faults of a computation that keeps a state are of one of some kinds. -/
abbrev RunKindsIn (kinds : List FaultKind) (x : ExceptT Fault (StateM σ) α) : Prop :=
  Runs (fun f => f.kind ∈ kinds) x

/-- The faults of a computation that keeps a state are reported by a run, or of one of some
kinds. -/
abbrev RunsIn (kinds : List FaultKind) (x : ExceptT Fault (StateM σ) α) : Prop :=
  Runs (fun f => isReported f = true ∨ f.kind ∈ kinds) x

namespace Runs

/-- Returning a value has no faults. -/
theorem done (a : α) : Runs P (pure a : ExceptT Fault (StateM σ) α) := fun _ => .ok a

/-- Reading the state has no faults. -/
theorem state : Runs P (get : ExceptT Fault (StateM σ) σ) := fun s => .ok s

/-- Changing the state has no faults. -/
theorem change (f : σ → σ) : Runs P (modify f : ExceptT Fault (StateM σ) PUnit) := fun _ => .ok _

/-- A failure has its own fault. -/
theorem fail {f : Fault} (h : P f) : Runs P (throw f : ExceptT Fault (StateM σ) α) :=
  fun _ => .error h

/-- Two computations in a row have the faults of both. -/
theorem bind {x : ExceptT Fault (StateM σ) α} {f : α → ExceptT Fault (StateM σ) β}
    (hx : Runs P x) (hf : ∀ a, Runs P (f a)) : Runs P (x >>= f) := by
  intro s
  have hxs := hx s
  rw [run_bind]
  generalize x.run s = q at hxs
  obtain ⟨outcome, s'⟩ := q
  cases outcome with
  | error e => exact .error (hxs e rfl)
  | ok a => exact hf a s'

/-- A computation that needs the result of an outcome. -/
theorem lift {o : Outcome α} {f : α → ExceptT Fault (StateM σ) β} (ho : o.Faults P)
    (hf : ∀ a, o = .ok a → Runs P (f a)) : Runs P (liftM o >>= f) := by
  intro s
  rw [run_bind]
  cases o with
  | error e => exact .error (ho e rfl)
  | ok a => exact hf a rfl s

/-- An outcome has its own faults. -/
theorem ofOutcome {o : Outcome α} (ho : o.Faults P) :
    Runs P (liftM o : ExceptT Fault (StateM σ) α) :=
  fun _ => ho

end Runs

end Outcome

open Outcome (Runs RunsIn)

namespace Value

/-- Entries that are added to a mapping are those of a mapping, or pairs. -/
theorem faultsIn_extend (es : List (Atom × Value)) (v : Value) :
    (extend es v).FaultsIn [.type, .value] := by
  have hparts (v : Value) : v.parts.FaultsIn [.type, .value] :=
    (kindsIn_parts v).faultsIn (by decide)
  have hpair (p : Value × Nat) : (pairOf p.2 p.1).FaultsIn [.type, .value] := by
    unfold pairOf
    refine Faults.bind (hparts p.1) fun parts _ => ?_
    split
    · exact Faults.ok _
    · exact Faults.error (by decide)
    · exact FaultsIn.raise .value rfl (by decide)
  unfold extend
  dsimp only
  split
  · exact Faults.ok _
  · refine Faults.bind (hparts _) fun items _ => ?_
    refine Faults.bind (Faults.mapM fun p _ => hpair p) fun added _ => ?_
    exact Faults.ok _

/-- Only a mapping, a list or a text can hold a name. -/
theorem faultsIn_mentions (name : String) (v : Value) : (v.mentions name).FaultsIn [.type] := by
  unfold mentions
  split
  · exact Faults.ok _
  · exact Faults.ok _
  · exact Faults.ok _
  · exact Faults.error (by decide)

end Value

/-- Mechanisms that are checked are refused with a fault of their own. -/
theorem faultsIn_checkMechanisms (robot : Value) (ms : List (Mechanism Float)) :
    (checkMechanisms robot ms).FaultsIn [] := by
  unfold checkMechanisms
  split
  · split
    · exact FaultsIn.report rfl
    · rename_i hnone
      -- No mechanism sits on a slot that there is not.
      have hrange : ∀ m ∈ ms, 0 ≤ m.number ∧ m.number < 6 := fun m hm => by
        simpa using List.find?_eq_none.mp hnone m hm
      rw [dif_pos hrange]
      split
      · exact Faults.ok _
      · exact FaultsIn.report rfl
  · exact FaultsIn.report rfl

namespace Config

/-- The kinds of faults that a configuration lets through. -/
def configKinds : List FaultKind :=
  [.type, .index, .value, .key, .part, .overflow, .zeroDivision]

/-- The frame of some settings is built unless its axes have no direction. -/
theorem FrameSettings.faultsIn_build (f : FrameSettings) : f.build.FaultsIn configKinds :=
  (Frame.kindsIn_ofAxes f.point f.xaxis f.yaxis).faultsIn (by decide)

/-- The frame of an axis is built unless the axis has no direction. -/
theorem AxisSettings.faultsIn_build (a : AxisSettings) : a.build.FaultsIn configKinds :=
  (Frame.kindsIn_ofAxis a.origin a.axis).faultsIn (by decide)

/-- A tool has the faults of its two frames. -/
theorem ToolSettings.faultsIn_build (t : ToolSettings) : t.build.FaultsIn configKinds := by
  unfold build
  refine Faults.bind t.attachment.faultsIn_build fun attachment _ => ?_
  refine Faults.bind t.tip.faultsIn_build fun tip _ => ?_
  exact Faults.ok _

/-- A mechanism has the faults of its frame. -/
theorem MechanismSettings.faultsIn_build (m : MechanismSettings) :
    m.build.FaultsIn configKinds := by
  unfold build
  refine Faults.bind m.frame.faultsIn_build fun frame _ => ?_
  exact Faults.ok _

/-- A robot has the faults of its frames; the numbers of its axes and of its mechanisms are checked
with faults of their own. -/
theorem RobotSettings.faultsIn_build (r : RobotSettings) : r.build.FaultsIn configKinds := by
  unfold build
  refine Faults.bind (Faults.mapM fun a _ => a.faultsIn_build) fun frames _ => ?_
  refine Faults.bind r.base.faultsIn_build fun base _ => ?_
  refine Faults.bind r.mounting.faultsIn_build fun mounting _ => ?_
  refine Faults.bind r.tool.faultsIn_build fun tool _ => ?_
  refine Faults.bind (Faults.mapM fun m _ => m.faultsIn_build) fun mechanisms _ => ?_
  -- The axes are counted only now, so an axis without a direction comes before a missing one.
  unfold Robot.make
  split_ifs
  · have htip : (tool.attachedTip mounting).FaultsIn configKinds :=
      (Frame.kindsIn_ofAxes _ _ _).faultsIn (by decide)
    refine Faults.bind htip fun tip _ => ?_
    refine Faults.bind ((faultsIn_checkMechanisms _ _).mono (by decide)) fun ms _ => ?_
    exact Faults.ok _
  · exact FaultsIn.report rfl
  · exact FaultsIn.report rfl

/-- Settings that break rules are a fault of settings; a key that is no text is of the wrong
type. -/
theorem RobotSettings.faultsIn_ofEntries (es : List (Atom × Value)) :
    (RobotSettings.ofEntries es).FaultsIn [.type, .settings] := by
  unfold ofEntries
  split_ifs
  · unfold Checked.outcome
    split
    · exact Faults.ok _
    · exact FaultsIn.raise .settings rfl (by decide)
  · exact Faults.error (by decide)

namespace Catalog

/-- The entries of a robot are those of its section with what is added to them. -/
theorem faultsIn_robotEntries (es : List (Atom × Value)) (robot : Value) :
    (robotEntries es robot).FaultsIn [.type, .value] := by
  unfold robotEntries
  refine Faults.bind (Value.faultsIn_extend [] robot) fun own _ => ?_
  -- The tool and the external axes are put under their names whatever they are.
  dsimp only
  split
  · refine Faults.bind (Value.faultsIn_extend own _) fun own _ => ?_
    exact Faults.ok _
  · exact Faults.ok _

/-- The robot of a document. -/
theorem faultsIn_robotOf (v : Value) : (robotOf v).FaultsIn [.type, .value, .settings] := by
  unfold robotOf
  split_ifs
  · exact Faults.ok _
  refine Faults.bind ((Value.faultsIn_mentions "robot" v).mono (by decide)) fun mentioned _ => ?_
  split_ifs
  · exact Faults.ok _
  split
  · refine Faults.bind ((faultsIn_robotEntries _ _).mono (by decide)) fun own _ => ?_
    refine Faults.bind ((RobotSettings.faultsIn_ofEntries own).mono (by decide)) fun robot _ => ?_
    exact Faults.ok _
  · exact Faults.error (by decide)

/-- A robot that is not in the table is reported, and a name must be an atom. -/
theorem faultsIn_find (robots : List (String × RobotSettings)) (name : Value) :
    (find robots name).FaultsIn configKinds := by
  unfold find
  split
  · split
    · exact Faults.ok _
    · exact FaultsIn.report rfl
  · exact Faults.error (by decide)

section

variable [Host] [Host.Lawful] (s : Files.Store)

/-- A text that is no document and settings that break rules are reported as faults of the file. -/
theorem faultsIn_readRobot (file : Files.Path) : (readRobot s file).FaultsIn configKinds := by
  have hread : (s.value file >>= robotOf).FaultsIn (.document :: .settings :: configKinds) := by
    refine Faults.bind ((s.faultsIn_value file).mono (by decide)) fun v _ => ?_
    exact (faultsIn_robotOf v).mono (by decide)
  refine Faults.mapError hread fun f h => ?_
  unfold robotFault
  split
  · exact .inl rfl
  · exact .inl rfl
  · -- Any other fault of the file passes, and its kind is neither of the two.
    rename_i hdocument hsettings
    have hkind : f.kind ≠ .document := fun hkind => hdocument (Fault.eq_of_kind_document hkind)
    have hkind' : f.kind ≠ .settings := fun hkind => by
      obtain ⟨issues, hissues⟩ := Fault.exists_of_kind_settings hkind
      exact hsettings issues hissues
    refine h.imp_right fun h => ?_
    exact List.mem_of_ne_of_mem hkind' (List.mem_of_ne_of_mem hkind h)

/-- A text that is no document is reported as a fault of the file of program settings. -/
theorem faultsIn_readProgram (directory : Files.Path) :
    (readProgram s directory).FaultsIn configKinds := by
  have hvalue (file : Files.Path) : Faults (fun f => isReported f = true ∨ f.kind ∈ configKinds)
      ((s.value file).mapError (programFault file)) := by
    refine Faults.mapError (s.faultsIn_value file) fun f h => ?_
    unfold programFault
    split
    · exact .inl rfl
    · rename_i hdocument
      exact Document.fault_of_ne h hdocument (by decide)
  have hprogram (v : Value) : (programOf v).FaultsIn configKinds := by
    unfold programOf
    refine Faults.bind ((Value.kindsIn_entries _).faultsIn (by decide)) fun es _ => ?_
    exact Faults.ok _
  unfold readProgram
  dsimp only
  split_ifs
  · refine Faults.bind (hvalue _) fun v _ => ?_
    refine Faults.bind (hprogram v) fun program _ => ?_
    exact Faults.ok _
  · exact Faults.ok _

/-- Reading robots has the faults of each file, by induction on the files. -/
theorem runsIn_loadRobots (files : List Files.Path) : RunsIn configKinds (loadRobots s files) := by
  induction files with
  | nil => exact Runs.done ()
  | cons file files ih =>
    unfold loadRobots
    refine Runs.lift (faultsIn_readRobot s file) fun robot _ => ?_
    cases robot with
    | some robot => exact Runs.bind (Runs.change _) fun _ => ih
    | none => exact ih

/-- Reading a directory, unless it was read, has the faults of its files. -/
theorem runsIn_ensureLoaded : RunsIn configKinds (ensureLoaded s) := by
  have hload : RunsIn configKinds (load s) := by
    unfold load
    refine Runs.bind Runs.state fun c => ?_
    refine Runs.bind (runsIn_loadRobots s _) fun _ => ?_
    refine Runs.lift (faultsIn_readProgram s _) fun program _ => ?_
    cases program with
    | some program => exact Runs.bind (Runs.change _) fun _ => Runs.change _
    | none => exact Runs.change _
  unfold ensureLoaded
  refine Runs.bind Runs.state fun c => ?_
  split_ifs
  · exact hload
  · exact Runs.done ()

/-- The settings of programs are a mapping. -/
theorem runsIn_settings : RunsIn configKinds (settings s) := by
  unfold settings
  refine Runs.bind (runsIn_ensureLoaded s) fun _ => ?_
  refine Runs.bind Runs.state fun c => ?_
  refine Runs.lift ((Value.faultsIn_extend [] c.program).mono (by decide)) fun es _ => ?_
  exact Runs.done _

/-- A robot that is built has the faults of its directory, of its name and of its settings. -/
theorem runsIn_build (name : Value) : RunsIn configKinds (build s name) := by
  have hrobot : RunsIn configKinds (robot s name) := by
    unfold robot
    refine Runs.bind (runsIn_ensureLoaded s) fun _ => ?_
    refine Runs.bind Runs.state fun c => ?_
    exact Runs.ofOutcome (faultsIn_find c.robots name)
  unfold build
  refine Runs.bind hrobot fun robot => ?_
  exact Runs.ofOutcome robot.faultsIn_build

end

end Catalog

end Config

end RobotProgram
