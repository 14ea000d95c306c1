import RobotProgram.Proofs.Offers

/-!
# What an action offers to a program

The declarations of an action, as a list of offers that does not depend on the buffers:
`emitDeclaration_emits` shows that declaring an action makes exactly these offers. A movement to a
robot target declares its destination, a joint target of its own for an absolute joint movement and
else the target with its resolved external values, and the diagnostics of its solution come with
that declaration. The instructions of an action are offers in the same way
(`emitInstruction_emits`).
-/

namespace RobotProgram.Program

/-- What a movement to a robot target declares: the name that its instruction refers to, the thing
behind the name, and the line. -/
structure Destination where
  name : Value
  action : Action
  line : Outcome String

namespace Generator

open Kinematics (Resolver Solution)

/-- The name of the destination of a movement to a robot target. -/
def destinationName (kind : MoveKind) (t : RobotTarget) : Value :=
  match kind with
  | .absoluteJoint => .text (if t.name.truthy then t.name.toText ++ "_jt" else "")
  | _ => t.name

/-- The destination of a movement to a robot target, from its solution. -/
def destination (kind : MoveKind) (t : RobotTarget) (solution : Solution Float) : Destination :=
  match kind with
  | .absoluteJoint =>
    let j := Movement.jointTarget (some (.robotTarget t)) solution
    ⟨j.name, .jointTarget j, j.declaration⟩
  | _ => ⟨t.name, .robotTarget t, t.resolvedDeclaration (Movement.externalOf solution)⟩

/-- The destination has the name that the instruction goes to. -/
theorem destination_name (kind : MoveKind) (t : RobotTarget) (solution : Solution Float) :
    (destination kind t solution).name = destinationName kind t := by
  cases kind <;> rfl

/-- The diagnostics of a solution: that the target is not reached, or the limits that are
violated. -/
def problems (g : Generator) (t : RobotTarget) (solution : Solution Float) : List String :=
  if solution.valid then checkLimits g.robot t.owner solution.internal solution.external
  else solution.errors

/-! ### Offers -/

/-- The offer of a declaration under a name. -/
def offerAs (name : Value) (d : Declared) (line : String) (problems : List String) :
    Outcome (List Offer) := do
  return [.declare (← symbolKey name) d line problems]

/-- The offer of a robot position. -/
def robotJointsOffers (p : RobotJoints) : Outcome (List Offer) :=
  if p.name.truthy then offerAs p.name (.action (.robotJoints p)) p.declaration [] else .ok []

/-- The offer of an external position. -/
def externalJointsOffers (p : ExternalJoints) : Outcome (List Offer) :=
  if p.name.truthy then offerAs p.name (.action (.externalJoints p)) p.declaration [] else .ok []

/-- The offer of a speed. -/
def speedOffers (s : Speed) : Outcome (List Offer) :=
  if s.predefined.truthy then .ok []
  else do offerAs s.name (.action (.speed s)) (← s.declaration) []

/-- The offer of a work object. -/
def workObjectOffers (w : WorkObject) : Outcome (List Offer) :=
  if w.isDefault then .ok [] else offerAs w.name (.workObject w) w.declaration []

/-- The offer of a robot target on its own. -/
def robotTargetOffers (t : RobotTarget) : Outcome (List Offer) :=
  if t.name.truthy then do offerAs t.name (.action (.robotTarget t)) (← t.declaration) []
  else .ok []

/-- The offers of the parts of a joint target. -/
def jointPartOffers (t : JointTarget) : Outcome (List Offer) :=
  .both (do robotJointsOffers (← present t.robot)) (do externalJointsOffers (← present t.external))

/-- The offer of a joint target without its parts. -/
def ownJointOffers (g : Generator) (t : JointTarget) : Outcome (List Offer) :=
  if t.name.truthy then do
    let line ← t.declaration
    offerAs t.name (.action (.jointTarget t)) line (← t.limitMessages g.robot)
  else .ok []

/-- The offers of a joint target: its parts, then itself. -/
def jointTargetOffers (g : Generator) (t : JointTarget) : Outcome (List Offer) :=
  .both (jointPartOffers t) (g.ownJointOffers t)

/-- The limits of a joint target that is written in place. -/
def inlineJointOffers (g : Generator) (t : JointTarget) : Outcome (List Offer) :=
  if t.name.truthy then .ok [] else do return [.report (← t.limitMessages g.robot)]

/-- The offers of the speed and the work object of a movement. -/
def partOffers (m : Movement) : Outcome (List Offer) :=
  .both (do speedOffers (← present m.speed)) (workObjectOffers m.workObject)

/-- The offer of a destination, or its diagnostics alone when the target is written in place. -/
def destinationOffers (g : Generator) (kind : MoveKind) (t : RobotTarget)
    (solution : Solution Float) : Outcome (List Offer) :=
  let d := destination kind t solution
  if t.name.truthy then do
    offerAs d.name (.action d.action) (← d.line) (g.problems t solution)
  else .ok [.report (g.problems t solution)]

/-- The offers of the resolved target of a movement. -/
def solutionOffers [Resolver] (g : Generator) (m : Movement) (kind : MoveKind)
    (target : Option Action) : Outcome (List Offer) := do
  let solution ← (m.solve target g.robot).outcome
  match target with
  | some (.robotTarget t) => g.destinationOffers kind t solution
  | _ => .error .noSuchPart

/-- The offers of the declarations of an action. -/
def offers [Resolver] (g : Generator) : Action → Outcome (List Offer)
  | .robotJoints p => robotJointsOffers p
  | .externalJoints p => externalJointsOffers p
  | .jointTarget t => g.jointTargetOffers t
  | .robotTarget t => robotTargetOffers t
  | .speed s => speedOffers s
  | .wait _ | .output _ => .ok []
  | .movement m (some (.jointTarget t)) =>
    .both (partOffers m) (.both (g.jointTargetOffers t) (g.inlineJointOffers t))
  | .movement m (some target) =>
    .both (partOffers m) (match m.kind with
      | .other _ => g.offers target
      | .known kind => g.solutionOffers m kind (some target))
  | .movement m none =>
    .both (partOffers m) (match m.kind with
      | .other _ => .error .noSuchPart
      | .known kind => g.solutionOffers m kind none)

/-- The offers of the instructions of an action. -/
def instructionOffers [Resolver] (g : Generator) : Action → Outcome (List Offer)
  | .wait w => .ok [.instruct w.instruction]
  | .output o => .ok [.instruct o.instruction]
  | .movement m target => do
    let text ← (m.instruction target g.robot g.toolName).outcome
    if text.isEmpty then return [.report [← unknownType m target]]
    else return (Text.lines text).map .instruct
  | _ => .ok []

/-- The solution of a movement to a robot target comes from its pose in world coordinates and the
external values that the target asks for. -/
theorem solve_outcome [Resolver] (m : Movement) (t : RobotTarget) (robot : Robot Float) :
    (m.solve (some (.robotTarget t)) robot).outcome = (do
      let resolve ← Resolver.resolver robot
      match m.globalFrame with
      | some frame => resolve frame (t.external.elim noSlots (·.slots)) t.owner
      | none => .error .noSuchPart) := by
  unfold Movement.solve
  cases Resolver.resolver robot with
  | error f => rfl
  | ok resolve =>
    cases m.globalFrame with
    | none => rfl
    | some frame =>
      -- Only the log tells the solution from its outcome.
      change Logged.outcome (do
        let solution ← resolve frame (t.external.elim noSlots (·.slots)) t.owner
        logEvent (solution.event t.owner)
        return solution) = resolve frame (t.external.elim noSlots (·.slots)) t.owner
      cases resolve frame (t.external.elim noSlots (·.slots)) t.owner <;> rfl

/-! ### Emission makes these offers -/

/-- A registration alone makes the offer of its declaration. -/
theorem register_emits (name : Value) (d : Declared) (line : String) :
    Emits (do let _ ← register name d line) (offerAs name d line []) :=
  Emits.register_only name d line

/-- A condition chooses between steps as between their offers. -/
theorem ite_emits {c : Bool} {x y : Emit Unit} {o p : Outcome (List Offer)} (hx : Emits x o)
    (hy : Emits y p) : Emits (if c then x else y) (if c then o else p) := by
  cases c with
  | false => exact hy
  | true => exact hx

/-- Emitting robot joints makes their offers. -/
theorem emitRobotJoints_emits (p : RobotJoints) :
    Emits (emitRobotJoints p) (robotJointsOffers p) :=
  ite_emits (register_emits _ _ _) Emits.skip

/-- Emitting external joints makes their offers. -/
theorem emitExternalJoints_emits (p : ExternalJoints) :
    Emits (emitExternalJoints p) (externalJointsOffers p) :=
  ite_emits (register_emits _ _ _) Emits.skip

/-- Emitting a robot target makes its offers. -/
theorem emitRobotTarget_emits (t : RobotTarget) :
    Emits (emitRobotTarget t) (robotTargetOffers t) :=
  ite_emits (Emits.lift fun _ _ => register_emits _ _ _) Emits.skip

/-- Emitting a speed makes its offers. -/
theorem emitSpeed_emits (s : Speed) : Emits (emitSpeed s) (speedOffers s) := by
  unfold emitSpeed speedOffers
  cases s.predefined.truthy with
  | false => exact Emits.lift fun _ _ => register_emits _ _ _
  | true => exact Emits.skip

/-- Emitting a work object makes its offers. -/
theorem emitWorkObject_emits (w : WorkObject) : Emits (emitWorkObject w) (workObjectOffers w) := by
  unfold emitWorkObject workObjectOffers
  cases w.isDefault with
  | false => exact register_emits _ _ _
  | true => exact Emits.skip

/-- Emitting the parts of a movement makes their offers. -/
theorem emitMovementParts_emits (m : Movement) : Emits (emitMovementParts m) (partOffers m) := by
  unfold emitMovementParts partOffers
  refine Emits.of_eq ?_ (Emits.lift fun s _ =>
    (emitSpeed_emits s).seq (emitWorkObject_emits m.workObject))
  simp only [Outcome.both, bind_assoc]

/-- Limits that can be checked are reported. -/
theorem reportLimits_emits (g : Generator) (t : JointTarget) :
    Emits (g.reportLimits t) (do return [.report (← t.limitMessages g.robot)]) := by
  unfold reportLimits
  refine Emits.lift fun messages _ => ?_
  exact (Emits.logs _).seq (Emits.addDiagnostics messages)

/-- The limits of a joint target that has both parts can be checked. -/
theorem limitMessages_isOk {g : Generator} {t : JointTarget} {line : String}
    (h : t.declaration = .ok line) (hname : t.name.truthy = true) :
    ∃ messages, t.limitMessages g.robot = .ok messages := by
  unfold JointTarget.declaration at h
  rw [if_pos hname] at h
  obtain ⟨value, hvalue, -⟩ := Outcome.map_eq_ok.mp h
  unfold JointTarget.valueText at hvalue
  obtain ⟨robot, hrobot, h⟩ := Outcome.bind_eq_ok.mp hvalue
  obtain ⟨external, hexternal, -⟩ := Outcome.bind_eq_ok.mp h
  unfold JointTarget.limitMessages
  rw [hrobot, hexternal]
  exact ⟨_, rfl⟩

/-- A named joint target is registered, and its limits are reported if its name is new. -/
theorem registerJointTarget_emits (g : Generator) (t : JointTarget) :
    Emits (do
      if t.name.truthy then
        if ← register t.name (.action (.jointTarget t)) (← t.declaration) then g.reportLimits t)
      (g.ownJointOffers t) := by
  unfold ownJointOffers
  by_cases hname : t.name.truthy
  · rw [if_pos hname, if_pos hname]
    refine Emits.lift fun line hline => ?_
    -- The limits are checked after the registration, but that cannot fail any more.
    obtain ⟨messages, hmessages⟩ := limitMessages_isOk (g := g) hline hname
    have hreport := reportLimits_emits g t
    rw [hmessages] at hreport ⊢
    exact Emits.register hreport Emits.skip
  · rw [if_neg hname, if_neg hname]
    exact Emits.skip

/-- A joint target declares its parts, then itself. -/
theorem emitJointTarget_emits (g : Generator) (t : JointTarget) :
    Emits (g.emitJointTarget t) (g.jointTargetOffers t) := by
  unfold emitJointTarget jointTargetOffers jointPartOffers
  refine Emits.of_eq ?_ (Emits.lift fun robot _ => (emitRobotJoints_emits robot).seq
    (Emits.lift fun external _ => (emitExternalJoints_emits external).seq
      (registerJointTarget_emits g t)))
  simp only [Outcome.both, bind_assoc, pure_bind, List.append_assoc]

/-- The messages of a solution are its problems; the step only logs. -/
theorem solutionMessages_emits (g : Generator) (t : RobotTarget) (solution : Solution Float)
    {f : List String → Emit Unit} {o : Outcome (List Offer)}
    (h : Emits (f (g.problems t solution)) o) :
    Emits (do f (← g.solutionMessages t solution)) o := by
  unfold solutionMessages
  unfold problems at h
  cases hvalid : solution.valid with
  | false =>
    rw [hvalid] at h
    exact h
  | true =>
    -- Checking the limits also logs what is violated.
    rw [hvalid] at h
    have hlogs := (Emits.logs (limitEvents t.owner
      (checkLimits g.robot t.owner solution.internal solution.external))).seq h
    simp only [Bool.not_true, Bool.false_eq_true, if_false, bind_assoc, pure_bind]
    refine Emits.of_eq ?_ hlogs
    cases o <;> rfl

/-- A destination is named when the target is. -/
theorem destinationName_truthy (kind : MoveKind) (t : RobotTarget) :
    (destinationName kind t).truthy = t.name.truthy := by
  cases kind with
  | absoluteJoint =>
    change Value.truthy (.text (if t.name.truthy then t.name.toText ++ "_jt" else "")) = _
    cases t.name.truthy with
    | false => rfl
    | true => simp [Value.truthy]
  | linear => rfl
  | joint => rfl

/-- A resolved target is registered as the destination of the movement, and its problems are
reported if that is new or written in place. -/
theorem registerSolution_emits (g : Generator) (kind : MoveKind) (t : RobotTarget)
    (solution : Solution Float) :
    Emits (do
      let registered ← registerSolution kind t solution
      if registered || !t.name.truthy then addDiagnostics (g.problems t solution))
      (g.destinationOffers kind t solution) := by
  have hreport := Emits.addDiagnostics (g.problems t solution)
  have hjoint : (Movement.jointTarget (some (.robotTarget t)) solution).name.truthy = _ :=
    destinationName_truthy .absoluteJoint t
  unfold registerSolution destinationOffers destination
  cases hname : t.name.truthy with
  | false =>
    -- Nothing is registered, and the problems are reported alone.
    rw [hname] at hjoint
    cases kind <;> simp only [hjoint, Bool.false_eq_true, if_false, pure_bind] <;>
      exact hreport
  | true =>
    rw [hname] at hjoint
    cases kind <;> simp only [hjoint, if_true, bind_assoc] <;>
      exact Emits.lift fun line _ => Emits.register hreport Emits.skip

/-- The resolved target of a movement is declared. -/
theorem emitSolution_emits [Resolver] (g : Generator) (m : Movement) (kind : MoveKind)
    (target : Option Action) :
    Emits (g.emitSolution m kind target) (g.solutionOffers m kind target) := by
  unfold emitSolution solutionOffers
  refine Emits.ofLogged fun solution _ => ?_
  cases target with
  | none => exact Emits.fail _
  | some a =>
    cases a with
    | robotTarget t =>
      exact solutionMessages_emits g t solution (registerSolution_emits g kind t solution)
    | _ => exact Emits.fail _

/-- A joint target that is written in place reports its limits. -/
theorem reportInline_emits (g : Generator) (t : JointTarget) :
    Emits (do if !t.name.truthy then g.reportLimits t) (g.inlineJointOffers t) := by
  unfold inlineJointOffers
  cases t.name.truthy with
  | false => exact reportLimits_emits g t
  | true => exact Emits.skip

/-- A movement declares its parts, then a target that is no joint target by its type. -/
theorem emitDeclaration_movement [Resolver] (g : Generator) (m : Movement) {target : Action}
    (htarget : ∀ t, target ≠ .jointTarget t) :
    g.emitDeclaration (.movement m (some target)) = (do
      emitMovementParts m
      match m.kind with
      | .other _ => g.emitDeclaration target
      | .known kind => g.emitSolution m kind (some target)) := by
  cases target with
  | jointTarget t => exact absurd rfl (htarget t)
  | _ => rfl

/-- A movement offers its parts, then a target that is no joint target by its type. -/
theorem offers_movement [Resolver] (g : Generator) (m : Movement) {target : Action}
    (htarget : ∀ t, target ≠ .jointTarget t) :
    g.offers (.movement m (some target)) = .both (partOffers m) (match m.kind with
      | .other _ => g.offers target
      | .known kind => g.solutionOffers m kind (some target)) := by
  rw [offers]
  exact htarget

/-- A movement to a robot target offers its parts, then the resolved target. -/
theorem offers_robotMovement [Resolver] (g : Generator) {m : Movement} {kind : MoveKind}
    (hkind : m.kind = .known kind) (t : RobotTarget) :
    g.offers (.movement m (some (.robotTarget t))) =
      .both (partOffers m) (g.solutionOffers m kind (some (.robotTarget t))) := by
  rw [offers_movement g m (by simp), hkind]

/-- Declaring an action makes the offers of the action. -/
theorem emitDeclaration_emits [Resolver] (g : Generator) (a : Action) :
    Emits (g.emitDeclaration a) (g.offers a) := by
  match a with
  | .robotJoints p => exact emitRobotJoints_emits p
  | .externalJoints p => exact emitExternalJoints_emits p
  | .jointTarget t => exact emitJointTarget_emits g t
  | .robotTarget t => exact emitRobotTarget_emits t
  | .speed s => exact emitSpeed_emits s
  | .wait _ => exact Emits.skip
  | .output _ => exact Emits.skip
  | .movement m none =>
    rw [emitDeclaration, offers]
    refine (emitMovementParts_emits m).seq ?_
    cases m.kind with
    | other v => exact Emits.fail _
    | known kind => exact emitSolution_emits g m kind none
  | .movement m (some target) =>
    -- The target of a movement whose type is not known is declared as if it stood alone.
    have ih := emitDeclaration_emits g target
    by_cases htarget : ∃ t, target = .jointTarget t
    · obtain ⟨t, rfl⟩ := htarget
      rw [emitDeclaration, offers]
      exact (emitMovementParts_emits m).seq
        ((emitJointTarget_emits g t).seq (reportInline_emits g t))
    · rw [not_exists] at htarget
      rw [emitDeclaration_movement g m htarget, offers_movement g m htarget]
      refine (emitMovementParts_emits m).seq ?_
      cases m.kind with
      | other v => exact ih
      | known kind => exact emitSolution_emits g m kind (some target)

/-- Instruction lines are added in order. -/
theorem addInstructions_emits (lines : List String) :
    Emits (lines.forM addInstruction) (.ok (lines.map .instruct)) := by
  induction lines with
  | nil => exact Emits.skip
  | cons line lines ih => exact (Emits.addInstruction line).seq ih

/-- An action gives its instructions as it offers them. -/
theorem emitInstruction_emits [Resolver] (g : Generator) (a : Action) :
    Emits (g.emitInstruction a) (g.instructionOffers a) := by
  cases a with
  | wait w => exact Emits.addInstruction _
  | output o => exact Emits.addInstruction _
  | movement m target =>
    refine Emits.ofLogged fun text _ => ?_
    by_cases h : text.isEmpty
    · rw [if_pos h, if_pos h]
      exact Emits.lift fun message _ => Emits.addDiagnostics [message]
    · rw [if_neg h, if_neg h]
      exact addInstructions_emits (Text.lines text)
  | _ => exact Emits.skip

end Generator

end RobotProgram.Program
