import RobotProgram.Proofs.ConfigFaults
import RobotProgram.Proofs.Made

/-!
# Which faults programs can meet

A program lets through what solving for its targets does, and names and settings that cannot be
written. Its actions are settled, so no velocity is missing and every type of movement can be named.
Writing its module lets through a path that is none and characters that the file does not take.
-/

namespace RobotProgram

open Pipeline (isReported)
open Outcome (Faults FaultsIn KindsIn Runs RunsIn RunKindsIn)

/-! ### Solving -/

/-- The position of a mechanism needs a direction. -/
theorem Mechanism.kindsIn_position (m : Mechanism Float) (p : Vector3 Float) :
    (m.position p).KindsIn [.value] := by
  unfold position
  split
  · refine Faults.bind (Vector3.kindsIn_unit _) fun direction _ => ?_
    exact Faults.ok _
  · refine Faults.bind (Vector3.kindsIn_unit _) fun direction _ => ?_
    refine Faults.bind (Vector3.kindsIn_unit _) fun reference _ => ?_
    dsimp only
    split_ifs
    · exact Faults.ok _
    · exact Faults.ok _

/-- The motion of a mechanism needs a direction and a finite angle. -/
theorem Mechanism.kindsIn_motion (m : Mechanism Float) (value : Float) :
    (m.motion value).KindsIn [.value] := by
  unfold motion
  split
  · refine Faults.bind (Vector3.kindsIn_unit _) fun direction _ => ?_
    exact Faults.ok _
  · refine Faults.bind (Vector3.kindsIn_unit _) fun direction _ => ?_
    unfold Matrix4.rotation?
    split_ifs
    · exact Faults.error (by decide)
    · exact Faults.ok _

namespace Kinematics

/-- The kinds of faults of a target that is resolved: a slot without a value, a direction or an
angle that is none, and equations without a solution. -/
def solverKinds : List FaultKind := [.type, .value, .singular]

namespace Solver

/-- A solver needs a direction for each axis. -/
theorem kindsIn_make (robot : Robot Float) (options : Options Float) :
    (make robot options).KindsIn [.value] := by
  have hline (f : Frame Float) : (lineOf f).KindsIn [.value] := by
    unfold lineOf
    refine Faults.bind (Vector3.kindsIn_unit f.zaxis) fun direction _ => ?_
    exact Faults.ok _
  unfold make
  refine Faults.bind (Faults.mapM_vector hline robot.axisFrames) fun lines _ => ?_
  exact Faults.ok _

/-- A slot that is settled has a value, and its mechanism can move to it. -/
theorem kindsIn_settle (point : Vector3 Float) (state : Slots Float × Matrix4 Float)
    (m : Mechanism Float) : (settle point state m).KindsIn [.type, .value] := by
  have hfill : (fillSlot point state.1 m).KindsIn [.type, .value] := by
    unfold fillSlot
    split
    · exact Faults.ok _
    · exact Faults.map ((m.kindsIn_position point).mono (by decide)) _
  unfold settle
  refine Faults.bind hfill fun slots _ => ?_
  split
  · exact Faults.error (by decide)
  · refine Faults.bind ((m.kindsIn_motion _).mono (by decide)) fun motion _ => ?_
    exact Faults.ok _

variable (s : Solver Float)

/-- The external values of a target are settled one mechanism after the other. -/
theorem kindsIn_resolveExternal (target : Frame Float) (slots : Slots Float) :
    (s.resolveExternal target slots).KindsIn [.type, .value] := by
  have hturn (state : Slots Float × Matrix4 Float) (m : Mechanism Float) :
      (settleTurn state m).KindsIn [.type, .value] := kindsIn_settle _ state m
  unfold resolveExternal
  refine Faults.bind (Faults.foldlM hturn _ _) fun turned _ => ?_
  refine Faults.bind (Faults.foldlM (kindsIn_settle _) _ _) fun moved _ => ?_
  exact Faults.ok _

/-- The chain of the joints needs finite angles. -/
theorem kindsIn_chain? (angles : Angles Float) : (s.chain? angles).KindsIn [.value] := by
  unfold chain?
  split_ifs
  · exact Faults.error (by decide)
  · exact Faults.ok _

/-- The error of a pose needs finite angles. -/
theorem kindsIn_poseError (goal : Matrix4 Float) (angles : Angles Float) :
    (s.poseError goal angles).KindsIn [.value, .singular] := by
  unfold poseError
  refine Faults.bind ((s.kindsIn_chain? angles).mono (by decide)) fun current _ => ?_
  exact Faults.ok _

/-- A step of least squares needs finite angles and equations with a solution. -/
theorem kindsIn_step (angles : Angles Float) (e : PoseError Float) :
    (s.step angles e).KindsIn [.value, .singular] := by
  have hjacobian : (s.jacobian angles).KindsIn [.value, .singular] := by
    unfold jacobian
    refine Faults.bind ((s.kindsIn_chain? angles).mono (by decide)) fun current _ => ?_
    exact Faults.ok _
  unfold step
  refine Faults.bind hjacobian fun j _ => ?_
  split
  · exact Faults.error (by decide)
  · exact Faults.ok _

/-- Least squares have the faults of a step, however many are taken. -/
theorem kindsIn_refineFrom (goal : Matrix4 Float) (fuel : Nat) (taken : Int)
    (angles : Angles Float) :
    (s.refineFrom goal fuel taken angles).KindsIn [.value, .singular] := by
  -- By induction on the steps that may still be taken.
  induction fuel generalizing taken angles with
  | zero =>
    unfold refineFrom
    refine Faults.bind (s.kindsIn_poseError goal angles) fun e _ => ?_
    exact Faults.ok _
  | succ fuel ih =>
    unfold refineFrom
    refine Faults.bind (s.kindsIn_poseError goal angles) fun e _ => ?_
    split_ifs
    · exact Faults.ok _
    · refine Faults.bind (s.kindsIn_step angles e) fun angles _ => ?_
      exact ih _ angles

/-- A goal is reached in closed form or by least squares. -/
theorem kindsIn_solveGoal (goal : Matrix4 Float) :
    (s.solveGoal goal).KindsIn [.value, .singular] := by
  unfold solveGoal
  split
  · refine Faults.bind (s.kindsIn_poseError goal _) fun e _ => ?_
    split_ifs
    · exact Faults.ok _
    · exact s.kindsIn_refineFrom goal _ _ _
  · exact s.kindsIn_refineFrom goal _ _ _

/-- A target that is resolved has the faults of its external values and of its goal. -/
theorem kindsIn_resolve (target : Frame Float) (slots : Slots Float) (owner : String) :
    (s.resolve target slots owner).KindsIn solverKinds := by
  unfold resolve
  refine Faults.bind ((s.kindsIn_resolveExternal target slots).mono (by decide)) fun placed _ => ?_
  refine Faults.bind ((s.kindsIn_solveGoal placed.2).mono (by decide)) fun r _ => ?_
  exact Faults.ok _

end Solver

end Kinematics

/-! ### Actions -/

/-- The kinds of faults of a program that is generated: those of its targets, a name or a number
that is none, and a part that is missing. -/
def Program.programKinds : List FaultKind := [.type, .value, .part, .singular]

open Program (programKinds)

/-- Values are compared as numbers or as texts. -/
theorem Value.kindsIn_less (a b : Value) : (a.less b).KindsIn [.type] := by
  have hquantity (v : Value) : v.quantity.KindsIn [.type] := by
    unfold quantity
    split
    · exact Faults.ok _
    · exact Faults.ok _
    · exact Faults.ok _
    · exact Faults.error (by decide)
  have horder : (a.order b).KindsIn [.type] := by
    unfold order
    split
    · exact Faults.ok _
    · refine Faults.bind (hquantity _) fun x _ => ?_
      refine Faults.bind (hquantity _) fun y _ => ?_
      exact Faults.ok _
  unfold less
  refine Faults.bind horder fun order _ => ?_
  exact Faults.ok _

/-- The velocities of a speed are compared with zero. -/
theorem Speed.kindsIn_isValid (s : Speed) : s.isValid.KindsIn [.type] := by
  have hall (vs : List Value) : (allPositive vs).KindsIn [.type] := by
    induction vs with
    | nil => exact Faults.ok _
    | cons v vs ih =>
      unfold allPositive
      refine Faults.bind (Value.kindsIn_less _ v) fun positive _ => ?_
      split_ifs
      · exact ih
      · exact Faults.ok _
  unfold isValid
  split_ifs
  · exact hall _
  · exact Faults.ok _

/-- The velocities of a settled speed are numbers, so they can be written. -/
theorem Speed.exists_declaration {s : Speed} (h : s.Settled) :
    ∃ line, s.declaration = .ok line := by
  obtain ⟨⟨tool, htool⟩, ⟨turn, hturn⟩, ⟨linear, hlinear⟩, ⟨rotational, hrotational⟩, -⟩ := h
  unfold declaration
  split_ifs
  · exact ⟨_, rfl⟩
  · rw [valueText, velocities, htool, hturn, hlinear, hrotational]
    exact ⟨_, rfl⟩

namespace JointTarget

variable (t : JointTarget)

/-- The value of a joint target needs both of its parts. -/
theorem kindsIn_valueText : t.valueText.KindsIn [.part] := by
  unfold valueText
  refine Faults.bind (kindsIn_present _) fun robot _ => ?_
  refine Faults.bind (kindsIn_present _) fun external _ => ?_
  exact Faults.ok _

/-- A reference to a joint target is its name or its value. -/
theorem kindsIn_reference : t.reference.KindsIn [.part] := by
  unfold reference
  split_ifs
  · exact Faults.ok _
  · exact Faults.map t.kindsIn_valueText _

/-- The declaration of a joint target holds its value. -/
theorem kindsIn_declaration : t.declaration.KindsIn [.part] := by
  unfold declaration
  split_ifs
  · exact Faults.map t.kindsIn_valueText _
  · exact Faults.ok _

/-- The limits of both parts of a joint target are checked. -/
theorem kindsIn_limitMessages (robot : Robot Float) : (t.limitMessages robot).KindsIn [.part] := by
  unfold limitMessages
  refine Faults.bind (kindsIn_present _) fun internal _ => ?_
  refine Faults.bind (kindsIn_present _) fun external _ => ?_
  exact Faults.ok _

end JointTarget

namespace RobotTarget

variable (t : RobotTarget)

/-- The value of a robot target needs its frame. -/
theorem kindsIn_valueText (external : ExternalJoints) :
    (t.valueText external).KindsIn [.part] := by
  unfold valueText
  refine Faults.bind (kindsIn_present _) fun frame _ => ?_
  exact Faults.ok _

/-- The declaration of a robot target holds its value. -/
theorem kindsIn_declaration : t.declaration.KindsIn [.part] := by
  have hown : t.ownValueText.KindsIn [.part] := by
    unfold ownValueText
    split
    · exact t.kindsIn_valueText _
    · exact Faults.error (by decide)
  unfold declaration
  split_ifs
  · exact Faults.map hown _
  · exact Faults.ok _

/-- The declaration of a resolved robot target holds its value. -/
theorem kindsIn_resolvedDeclaration (external : ExternalJoints) :
    (t.resolvedDeclaration external).KindsIn [.part] := by
  unfold resolvedDeclaration
  split_ifs
  · exact Faults.map (t.kindsIn_valueText external) _
  · exact Faults.ok _

/-- A robot target with a frame needs external values. -/
theorem kindsIn_isValid : t.isValid.KindsIn [.part] := by
  unfold isValid
  split_ifs
  · exact Faults.ok _
  · refine Faults.bind (kindsIn_present _) fun external _ => ?_
    exact Faults.ok _

end RobotTarget

namespace Action

/-- Whether a movement is valid depends on its target and its speed. -/
theorem kindsIn_movementIsValid (m : Movement) (target : Option Action) :
    (movementIsValid m target).KindsIn [.type, .part] := by
  have htarget : (targetIsValid target).KindsIn [.type, .part] := by
    unfold targetIsValid
    split
    · exact Faults.ok _
    · exact (RobotTarget.kindsIn_isValid _).mono (by decide)
    · exact Faults.ok _
  unfold movementIsValid
  split
  · exact Faults.ok _
  · refine Faults.bind htarget fun valid _ => ?_
    split_ifs
    · exact (Speed.kindsIn_isValid _).mono (by decide)
    · exact Faults.ok _

/-- Whether an action is valid. -/
theorem kindsIn_isValid (a : Action) : a.isValid.KindsIn [.type, .part] := by
  cases a with
  | robotTarget t => exact t.kindsIn_isValid.mono (by decide)
  | speed s => exact s.kindsIn_isValid.mono (by decide)
  | movement m target => exact kindsIn_movementIsValid m target
  | _ => exact Faults.ok _

/-- A movement in messages. -/
theorem kindsIn_movementText (m : Movement) (target : Option Action) :
    (movementText m target).KindsIn [.type, .part] := by
  unfold movementText
  refine Faults.bind (kindsIn_movementIsValid m target) fun valid _ => ?_
  split_ifs
  · split
    · exact Faults.ok _
    · exact Faults.ok _
  · exact Faults.ok _

/-- An action in messages. -/
theorem kindsIn_text (a : Action) : a.text.KindsIn [.type, .part] := by
  cases a with
  | robotTarget t =>
    refine Faults.bind (t.kindsIn_isValid.mono (by decide)) fun valid _ => ?_
    exact Faults.ok _
  | speed s =>
    refine Faults.bind (s.kindsIn_isValid.mono (by decide)) fun valid _ => ?_
    cases valid with
    | true => exact Faults.ok _
    | false => exact Faults.ok _
  | movement m target => exact kindsIn_movementText m target
  | _ => exact Faults.ok _

end Action

namespace Movement

variable (m : Movement) (target : Option Action) (robot : Robot Float)

/-- Solving for a movement has the faults of the solver, or finds no robot target. -/
theorem runKindsIn_solve : RunKindsIn programKinds (m.solve target robot) := by
  have hresolver : (Kinematics.Resolver.resolver robot).KindsIn programKinds := by
    refine Faults.bind ((Kinematics.Solver.kindsIn_make robot _).mono (by decide)) fun s _ => ?_
    exact Faults.ok _
  unfold solve
  refine Runs.lift hresolver fun resolve hresolve => ?_
  obtain ⟨s, -, hs⟩ := Outcome.bind_eq_ok.mp hresolve
  obtain rfl := Outcome.pure_eq_ok.mp hs
  split
  · refine Runs.lift ((s.kindsIn_resolve _ _ _).mono (by decide)) fun solution _ => ?_
    refine Runs.bind (Runs.change _) fun _ => ?_
    exact Runs.done _
  · exact Runs.fail (by decide)

/-- Solving for something that is no target fails. -/
theorem runKindsIn_nameOrSolve (name : Value) :
    RunKindsIn programKinds (m.nameOrSolve target robot name) := by
  unfold nameOrSolve
  split_ifs
  · exact Runs.done _
  · refine Runs.bind (m.runKindsIn_solve target robot) fun solution => ?_
    exact Runs.fail (by decide)

/-- A linear or joint movement refers to a target by its name or its value. -/
theorem runKindsIn_poseReference (tool : Value) :
    RunKindsIn programKinds (m.poseReference target robot tool) := by
  unfold poseReference
  split
  · refine Runs.lift ((JointTarget.kindsIn_reference _).mono (by decide)) fun reference _ => ?_
    exact Runs.done _
  · split_ifs
    · exact Runs.done _
    · refine Runs.bind (m.runKindsIn_solve _ robot) fun solution => ?_
      refine Runs.lift ((RobotTarget.kindsIn_valueText _ _).mono (by decide)) fun text _ => ?_
      exact Runs.done _
  · exact m.runKindsIn_nameOrSolve _ robot _
  · exact m.runKindsIn_nameOrSolve _ robot _
  · split
    · split_ifs
      · exact Runs.done _
      · exact Runs.fail (by decide)
    · exact Runs.fail (by decide)
  · exact Runs.fail (by decide)

/-- An absolute joint movement refers to a joint target, and any other one to a pose. -/
theorem runKindsIn_targetReference (kind : MoveKind) (tool : Value) :
    RunKindsIn programKinds (m.targetReference target kind robot tool) := by
  have hreference (t : JointTarget) : t.reference.KindsIn programKinds :=
    t.kindsIn_reference.mono (by decide)
  unfold targetReference
  split
  · split
    · exact Runs.ofOutcome (hreference _)
    · refine Runs.bind (m.runKindsIn_solve _ robot) fun solution => ?_
      exact Runs.ofOutcome (hreference _)
  · exact m.runKindsIn_poseReference target robot tool

/-- The instruction of a movement has the faults of its reference, its speed and its zone. -/
theorem runKindsIn_instruction (ambient : Value) :
    RunKindsIn programKinds (m.instruction target robot ambient) := by
  have hzone : m.zone.KindsIn programKinds := by
    unfold zone
    refine Faults.bind ((Value.kindsIn_less _ _).mono (by decide)) fun fine _ => ?_
    split_ifs
    · exact Faults.ok _
    · exact Faults.ok _
  unfold instruction
  split
  · exact Runs.done _
  · refine Runs.bind (m.runKindsIn_targetReference target robot _ _) fun reference => ?_
    refine Runs.lift ((kindsIn_present _).mono (by decide)) fun speed _ => ?_
    refine Runs.lift hzone fun zone _ => ?_
    split
    · split_ifs
      · exact Runs.done _
      · exact Runs.done _
      · exact Runs.done _
    · exact Runs.done _

end Movement

/-! ### Programs -/

namespace Program.Generator

/-- A name that is none is refused, and so is one that is a list or a mapping. -/
theorem kindsIn_offerAs {name : Value} (hname : name.truthy = true) (d : Declared) (line : String)
    (problems : List String) : (offerAs name d line problems).KindsIn programKinds := by
  have hkey : (symbolKey name).KindsIn programKinds := by
    unfold symbolKey
    rw [hname]
    split
    · rename_i h
      cases h
    · split
      · exact Faults.ok _
      · exact Faults.error (by decide)
  unfold offerAs
  refine Faults.bind hkey fun key _ => ?_
  exact Faults.ok _

/-- An empty name is a fault of generation. -/
theorem faultsIn_offerAs (name : Value) (d : Declared) (line : String) (problems : List String) :
    (offerAs name d line problems).FaultsIn programKinds := by
  by_cases hname : name.truthy = true
  · exact (kindsIn_offerAs hname d line problems).faultsIn (List.Subset.refl _)
  · unfold offerAs symbolKey
    rw [Bool.eq_false_iff.mpr hname]
    exact FaultsIn.report rfl

/-- Offers in a row have the faults of both. -/
theorem faults_both {P : Fault → Prop} {o p : Outcome (List Offer)} (ho : o.Faults P)
    (hp : p.Faults P) : (o.both p).Faults P := by
  unfold Outcome.both
  refine Faults.bind ho fun first _ => ?_
  refine Faults.bind hp fun second _ => ?_
  exact Faults.ok _

/-- A robot position with a name. -/
theorem kindsIn_robotJointsOffers (p : RobotJoints) :
    (robotJointsOffers p).KindsIn programKinds := by
  unfold robotJointsOffers
  split_ifs with hname
  · exact kindsIn_offerAs hname _ _ _
  · exact Faults.ok _

/-- An external position with a name. -/
theorem kindsIn_externalJointsOffers (p : ExternalJoints) :
    (externalJointsOffers p).KindsIn programKinds := by
  unfold externalJointsOffers
  split_ifs with hname
  · exact kindsIn_offerAs hname _ _ _
  · exact Faults.ok _

/-- A settled speed can be declared. -/
theorem faultsIn_speedOffers {s : Speed} (h : s.Settled) :
    (speedOffers s).FaultsIn programKinds := by
  obtain ⟨line, hline⟩ := Speed.exists_declaration h
  unfold speedOffers
  split_ifs
  · exact Faults.ok _
  · rw [hline]
    exact faultsIn_offerAs _ _ _ _

/-- A work object that the controller does not know needs a name. -/
theorem faultsIn_workObjectOffers (w : WorkObject) :
    (workObjectOffers w).FaultsIn programKinds := by
  unfold workObjectOffers
  split_ifs
  · exact Faults.ok _
  · exact faultsIn_offerAs _ _ _ _

/-- A settled movement has a speed that can be declared. -/
theorem faultsIn_partOffers {m : Movement} {target : Option Action} (h : m.Settled target) :
    (partOffers m).FaultsIn programKinds := by
  obtain ⟨s, hs, hspeed⟩ := h.speed
  refine faults_both ?_ (faultsIn_workObjectOffers _)
  rw [hs]
  exact faultsIn_speedOffers hspeed

/-- A joint target needs its parts. -/
theorem kindsIn_jointTargetOffers (g : Generator) (t : JointTarget) :
    (g.jointTargetOffers t).KindsIn programKinds := by
  refine faults_both (faults_both ?_ ?_) ?_
  · refine Faults.bind ((kindsIn_present _).mono (by decide)) fun p _ => ?_
    exact kindsIn_robotJointsOffers p
  · refine Faults.bind ((kindsIn_present _).mono (by decide)) fun p _ => ?_
    exact kindsIn_externalJointsOffers p
  · unfold ownJointOffers
    split_ifs with hname
    · refine Faults.bind (t.kindsIn_declaration.mono (by decide)) fun line _ => ?_
      refine Faults.bind ((t.kindsIn_limitMessages g.robot).mono (by decide)) fun messages _ => ?_
      exact kindsIn_offerAs hname _ _ _
    · exact Faults.ok _

/-- A joint target that is written in place needs its parts. -/
theorem kindsIn_inlineJointOffers (g : Generator) (t : JointTarget) :
    (g.inlineJointOffers t).KindsIn programKinds := by
  unfold inlineJointOffers
  split_ifs
  · exact Faults.ok _
  · refine Faults.bind ((t.kindsIn_limitMessages g.robot).mono (by decide)) fun messages _ => ?_
    exact Faults.ok _

/-- A robot target needs its frame. -/
theorem kindsIn_robotTargetOffers (t : RobotTarget) :
    (robotTargetOffers t).KindsIn programKinds := by
  unfold robotTargetOffers
  split_ifs with hname
  · refine Faults.bind (t.kindsIn_declaration.mono (by decide)) fun line _ => ?_
    exact kindsIn_offerAs hname _ _ _
  · exact Faults.ok _

/-- A destination is declared with the value that it was resolved to. -/
theorem kindsIn_destinationOffers (g : Generator) (kind : MoveKind) (t : RobotTarget)
    (solution : Kinematics.Solution Float) :
    (g.destinationOffers kind t solution).KindsIn programKinds := by
  have hline : (destination kind t solution).line.KindsIn programKinds := by
    cases kind with
    | absoluteJoint => exact (JointTarget.kindsIn_declaration _).mono (by decide)
    | linear => exact (t.kindsIn_resolvedDeclaration _).mono (by decide)
    | joint => exact (t.kindsIn_resolvedDeclaration _).mono (by decide)
  unfold destinationOffers
  dsimp only
  split_ifs with hname
  · -- The name of the destination is made from that of the target.
    have hdestination : (destination kind t solution).name.truthy = true := by
      rw [destination_name, destinationName_truthy, hname]
    refine Faults.bind hline fun line _ => ?_
    exact kindsIn_offerAs hdestination _ _ _
  · exact Faults.ok _

/-- A movement that is resolved has the faults of its solution and of its destination. -/
theorem kindsIn_solutionOffers (g : Generator) (m : Movement) (kind : MoveKind)
    (target : Option Action) : (g.solutionOffers m kind target).KindsIn programKinds := by
  unfold solutionOffers
  refine Faults.bind (m.runKindsIn_solve target g.robot []) fun solution _ => ?_
  split
  · exact g.kindsIn_destinationOffers kind _ solution
  · exact Faults.error (by decide)

/-- What the declarations of a settled action let through. -/
theorem faultsIn_offers (g : Generator) {a : Action} (h : a.Settled) :
    (g.offers a).FaultsIn programKinds := by
  have hlax {o : Outcome (List Offer)} (ho : o.KindsIn programKinds) : o.FaultsIn programKinds :=
    ho.faultsIn (List.Subset.refl _)
  match a with
  | .robotJoints p => exact hlax (kindsIn_robotJointsOffers p)
  | .externalJoints p => exact hlax (kindsIn_externalJointsOffers p)
  | .jointTarget t => exact hlax (g.kindsIn_jointTargetOffers t)
  | .robotTarget t => exact hlax (kindsIn_robotTargetOffers t)
  | .speed s => exact faultsIn_speedOffers h
  | .wait _ | .output _ => exact Faults.ok _
  | .movement m none => exact h.elim
  | .movement m (some target) =>
    -- By induction on the target, which a movement of an unknown type declares.
    have htarget := g.faultsIn_offers h.2
    by_cases hjoint : ∃ t, target = .jointTarget t
    · obtain ⟨t, rfl⟩ := hjoint
      rw [offers]
      refine faults_both (faultsIn_partOffers h.1) (hlax ?_)
      exact faults_both (g.kindsIn_jointTargetOffers t) (g.kindsIn_inlineJointOffers t)
    · rw [not_exists] at hjoint
      rw [offers_movement g m hjoint]
      refine faults_both (faultsIn_partOffers h.1) ?_
      split
      · exact htarget
      · exact hlax (g.kindsIn_solutionOffers m _ _)

/-- What the instructions of a settled action let through. -/
theorem faultsIn_instructionOffers (g : Generator) {a : Action} (h : a.Settled) :
    (g.instructionOffers a).FaultsIn programKinds := by
  match a with
  | .movement m none => exact h.elim
  | .movement m (some target) =>
    obtain ⟨n, hn, -⟩ := h.1.kind
    have hinstruction : (m.instruction (some target) g.robot g.toolName).outcome.KindsIn
        programKinds := m.runKindsIn_instruction _ _ _ []
    -- The number of the type is a whole one, so it can be named.
    have hunknown : (unknownType m (some target)).FaultsIn programKinds := by
      unfold unknownType
      refine Faults.bind ((Action.kindsIn_movementText m _).faultsIn (by decide)) fun text _ => ?_
      rw [hn, Value.integer_int]
      exact Faults.ok _
    unfold instructionOffers
    refine Faults.bind (hinstruction.faultsIn (List.Subset.refl _)) fun text _ => ?_
    split_ifs
    · refine Faults.bind hunknown fun message _ => ?_
      exact Faults.ok _
    · exact Faults.ok _
  | .robotJoints _ | .externalJoints _ | .jointTarget _ | .robotTarget _ | .speed _ | .wait _
  | .output _ => exact Faults.ok _

/-- Selecting the valid actions has the faults of asking them. -/
theorem kindsIn_select (ps : List (Action × Nat)) : (select ps).KindsIn programKinds := by
  induction ps with
  | nil => exact Faults.ok _
  | cons p ps ih =>
    have hmessage : (skipMessage p.2 p.1).KindsIn programKinds := by
      unfold skipMessage
      refine Faults.bind (p.1.kindsIn_text.mono (by decide)) fun text _ => ?_
      exact Faults.ok _
    unfold select
    refine Faults.bind (p.1.kindsIn_isValid.mono (by decide)) fun valid _ => ?_
    split_ifs
    · refine Faults.bind ih fun selected _ => ?_
      exact Faults.ok _
    · refine Faults.bind hmessage fun message _ => ?_
      refine Faults.bind ih fun selected _ => ?_
      exact Faults.ok _

/-- What the program of settled actions lets through. -/
theorem faultsIn_program (g : Generator) {actions : List Action} (h : ∀ a ∈ actions, a.Settled) :
    (g.program actions).FaultsIn programKinds := by
  unfold program
  refine Faults.bind ((kindsIn_select _).faultsIn (List.Subset.refl _)) fun selected hselected => ?_
  -- The actions that are selected are among the given ones.
  have hsettled : ∀ p ∈ selected.1, p.1.Settled := by
    obtain ⟨-, rfl⟩ := select_eq_ok.mp hselected
    intro p hp
    exact h p.1 (List.fst_mem_of_mem_zipIdx (List.mem_of_mem_filter hp))
  refine faults_both (Faults.ok _) (faults_both ?_ ?_)
  · exact Faults.map (Faults.mapM fun p hp => g.faultsIn_offers (hsettled p hp)) _
  · exact Faults.map (Faults.mapM fun p hp => g.faultsIn_instructionOffers (hsettled p hp)) _

/-- A line ending must be a text. -/
theorem kindsIn_lineBreak (s : Settings) : s.lineBreak.KindsIn [.part] := by
  unfold Settings.lineBreak
  split
  · exact Faults.ok _
  · exact Faults.error (by decide)

/-- An indentation must be something that can be doubled and written. -/
theorem kindsIn_doubleIndent (s : Settings) : s.doubleIndent.KindsIn [.type, .value] := by
  unfold Settings.doubleIndent
  split
  · exact Faults.ok _
  · exact Faults.ok _
  · exact (Value.kindsIn_written _).mono (by decide)
  · exact Faults.ok _
  · exact Faults.ok _
  · exact Faults.error (by decide)

/-- Generation lets through what the program does, and a line ending that is no text. -/
theorem runsIn_generate (g : Generator) {actions : List Action} (h : ∀ a ∈ actions, a.Settled) :
    RunsIn programKinds (g.generate actions) := by
  intro r
  have hjoined (lines : List String) : (g.joined lines).FaultsIn programKinds := by
    unfold joined
    refine Faults.bind ((kindsIn_lineBreak _).faultsIn (by decide)) fun ending _ => ?_
    exact Faults.ok _
  have hprogram := g.faultsIn_program h
  have hrun := g.run_generate actions r
  cases hos : g.program actions with
  | error f =>
    rw [hos] at hrun hprogram
    rw [hrun]
    exact Faults.error (hprogram f rfl)
  | ok os =>
    rw [hos] at hrun
    rw [hrun.1]
    unfold texts
    refine Faults.bind (hjoined _) fun declarations _ => ?_
    refine Faults.bind (hjoined _) fun instructions _ => ?_
    exact Faults.ok _

/-- A module needs comments that are a list, and an indentation and a line ending. -/
theorem faultsIn_moduleText (g : Generator) (b : Buffers) :
    (g.moduleText b).FaultsIn programKinds := by
  have hindented : (g.indentedInstructions b).FaultsIn programKinds := by
    unfold indentedInstructions
    refine Faults.mapM fun line _ => ?_
    refine Faults.bind ((kindsIn_doubleIndent _).faultsIn (by decide)) fun indent _ => ?_
    exact Faults.ok _
  have hlines : (g.moduleLines b).FaultsIn programKinds := by
    unfold moduleLines
    refine Faults.bind ((Value.kindsIn_parts _).faultsIn (by decide)) fun comments _ => ?_
    refine Faults.bind hindented fun instructions _ => ?_
    exact Faults.ok _
  unfold moduleText
  refine Faults.bind hlines fun lines _ => ?_
  refine Faults.bind ((kindsIn_lineBreak _).faultsIn (by decide)) fun ending _ => ?_
  exact Faults.ok _

end Program.Generator

/-! ### Files -/

namespace Files

/-- Writing needs a path that is whole; what the file system refuses is reported. -/
theorem Access.runsIn_write (p : Path) (text : String) :
    RunsIn [.type, .value] (Access.write p text) := by
  unfold Access.write
  refine Runs.lift ((Path.kindsIn_whole p).faultsIn (by decide)) fun _ _ => ?_
  refine Runs.bind Runs.state fun s => ?_
  split
  · exact Runs.change _
  · exact Runs.fail (.inl rfl)

/-- Making directories needs a path that is whole; what the file system refuses is reported. -/
theorem Access.runsIn_makeDirectories (p : Path) :
    RunsIn [.type, .value] (Access.makeDirectories p) := by
  unfold Access.makeDirectories
  refine Runs.lift ((Path.kindsIn_whole p).faultsIn (by decide)) fun _ _ => ?_
  refine Runs.bind Runs.state fun s => ?_
  split
  · exact Runs.change _
  · exact Runs.fail (.inl rfl)

/-- A path is given a suffix that is a text and makes a name. -/
theorem Path.kindsIn_withSuffix (p : Path) (suffix : Value) :
    (p.withSuffix suffix).KindsIn [.type, .value] := by
  unfold withSuffix
  split
  · split_ifs
    · exact KindsIn.of_kind .value rfl (by decide)
    · exact KindsIn.of_kind .value rfl (by decide)
    · exact Faults.ok _
  · exact Faults.error (by decide)

end Files

/-- Writing a module whose text can be made lets through a path or a file suffix that is none, and a
character that the file does not take. -/
theorem Program.Generator.runsIn_save [Host] {g : Generator} {b : Buffers} {text : String}
    (h : g.moduleText b = .ok text) (path : Files.Path) :
    RunsIn [.type, .value] (g.save b path) := by
  have hpath : (g.filePath path).FaultsIn [.type, .value] := by
    unfold filePath
    split_ifs
    · exact (Files.Path.kindsIn_withSuffix path _).faultsIn (List.Subset.refl _)
    · exact Faults.ok _
  have hencoded : (Host.encoded Host.fileTakes text).FaultsIn [.type, .value] :=
    (Host.kindsIn_encoded _ text).faultsIn (by decide)
  unfold save
  refine Runs.lift hpath fun path _ => ?_
  refine Runs.bind (Files.Access.runsIn_makeDirectories _) fun _ => ?_
  refine Runs.bind (Files.Access.runsIn_write path "") fun _ => ?_
  rw [h]
  refine Runs.lift (Faults.ok text) fun text' htext => ?_
  obtain rfl := Except.ok.inj htext
  refine Runs.lift hencoded fun encoded _ => ?_
  refine Runs.bind (Files.Access.runsIn_write path encoded) fun _ => ?_
  exact Runs.done _

end RobotProgram
