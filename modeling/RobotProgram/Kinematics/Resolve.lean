import RobotProgram.Cell.Slots
import RobotProgram.Kinematics.Solver
import RobotProgram.Log

/-!
# Resolving targets

External mechanisms are resolved before the joints: positioners turn the target about their axis,
tracks carry the robot's base along theirs. A slot that the caller defines keeps its value, and an
undefined slot of a mechanism gets the value that serves the target.
-/

namespace RobotProgram.Kinematics

open Scalar (nat)

/-- The joint values that reach a target, and the external values that go with them. -/
structure Solution (α : Type) where
  internal : Angles α
  external : Slots α
  valid : Bool
  errors : List String
  iterations : Int

/-- The event that a resolved target logs. -/
def Solution.event {α : Type} (r : Solution α) (owner : String) : Event :=
  if r.valid then
    ⟨.debug, "target_resolved", [("owner", .text owner), ("iterations", .int r.iterations)]⟩
  else ⟨.warning, "target_unreachable", [("owner", .text owner)]⟩

namespace Solver

variable {α : Type} [Scalar α]

/-- The mechanisms of a kind. -/
def mechanismsOf (s : Solver α) (kind : MechanismKind) : List (Mechanism α) :=
  s.robot.mechanisms.filter fun m => m.kind == kind

/-- Moves a pose by a mechanism whose slot is defined. -/
def carry (slots : Slots α) (pose : Matrix4 α) (m : Mechanism α) : Outcome (Matrix4 α) :=
  match slotValue slots m with
  | none => .ok pose
  | some value => do return (← m.motion value) * pose

/-- Moves a pose back by a mechanism whose slot is defined. -/
def carryBack (slots : Slots α) (pose : Matrix4 α) (m : Mechanism α) : Outcome (Matrix4 α) :=
  match slotValue slots m with
  | none => .ok pose
  | some value => do return (← m.motion value).inverse * pose

/-- The tool pose in world coordinates for angles in degrees. With positioners it is given in the
coordinates that turn with them, like a target. -/
def forward (s : Solver α) (joints : Angles α) (slots : Slots α) : Outcome (Frame α) :=
  if !joints.all Scalar.finite then .error .nonFiniteJoints
  else do
    let base ← (s.mechanismsOf .linear).foldlM (carry slots) s.robot.baseFrame.toMatrix
    let pose := base * s.chain (joints.map Scalar.radians)
    let pose ← (s.mechanismsOf .rotational).reverse.foldlM (carryBack slots) pose
    Frame.ofMatrix pose

/-- Resolves the slot of a mechanism for a target point, unless it has a value. -/
def fillSlot (point : Vector3 α) (slots : Slots α) (m : Mechanism α) : Outcome (Slots α) :=
  match slotValue slots m with
  | some _ => .ok slots
  | none => (fun x => slots.setIfInBounds m.number.toNat (slotOf x)) <$> m.position point

/-- Resolves the slot of a mechanism for a target point, and moves a pose by the mechanism. -/
def settle (point : Vector3 α) (state : Slots α × Matrix4 α) (m : Mechanism α) :
    Outcome (Slots α × Matrix4 α) := do
  let slots ← fillSlot point state.1 m
  match slotValue slots m with
  | none => .error .wrongType
  | some value => return (slots, (← m.motion value) * state.2)

/-- Resolves a positioner for the target that it turns. -/
def settleTurn (state : Slots α × Matrix4 α) (m : Mechanism α) :
    Outcome (Slots α × Matrix4 α) :=
  settle state.2.position state m

/-- External values for a target, and the target in base coordinates. -/
def resolveExternal (s : Solver α) (target : Frame α) (slots : Slots α) :
    Outcome (Slots α × Matrix4 α) := do
  let (slots, world) ←
    (s.mechanismsOf .rotational).foldlM settleTurn (slots, target.toMatrix)
  let (slots, base) ←
    (s.mechanismsOf .linear).foldlM (settle world.position) (slots, s.robot.baseFrame.toMatrix)
  return (slots, base.inverse * world)

/-- The closed form if it reaches the goal, and else the outcome of least squares started from it,
or from zero when there is none. -/
def solveGoal (s : Solver α) (goal : Matrix4 α) : Outcome (Refinement α) := do
  match s.closedForm goal with
  | some angles =>
    if s.converged (← s.poseError goal angles) then return ⟨angles, 0, true⟩
    else s.refine goal angles
  | none => s.refine goal (Vector.replicate 6 (nat 0))

/-- Axis values for a target in world coordinates. A target that is not reached gives a diagnostic
that names its owner. -/
def resolve (s : Solver α) (target : Frame α) (slots : Slots α) (owner : String) :
    Outcome (Solution α) := do
  let (external, goal) ← s.resolveExternal target slots
  let r ← s.solveGoal goal
  return {
    internal := r.angles.map fun q => Scalar.wrapDegrees (Scalar.degrees q)
    external
    valid := r.converged
    errors := if r.converged then [] else [owner ++ ": The target is unreachable."]
    iterations := r.iterations }

end Solver

/-- A way to resolve the targets of a program, given a robot: from a pose in world coordinates, the
external values that are asked for, and the owner of the diagnostics. A solution that does not
reach its target has a diagnostic. -/
class Resolver where
  resolver : Robot Float → Outcome (Frame Float → Slots Float → String → Outcome (Solution Float))
  reports {robot resolve target slots owner solution} : resolver robot = .ok resolve →
    resolve target slots owner = .ok solution → solution.valid = false → solution.errors ≠ []

/-- Programs resolve their targets by the joint solver. -/
instance : Resolver where
  resolver robot := do return (← Solver.make robot Options.default).resolve
  reports := by
    intro robot resolve target slots owner solution hrobot hresolve hvalid
    obtain ⟨s, -, hs⟩ := Outcome.bind_eq_ok.mp hrobot
    obtain rfl := Outcome.pure_eq_ok.mp hs
    obtain ⟨⟨external, goal⟩, -, hgoal⟩ := Outcome.bind_eq_ok.mp hresolve
    obtain ⟨r, -, hr⟩ := Outcome.bind_eq_ok.mp hgoal
    obtain rfl := Outcome.pure_eq_ok.mp hr
    simp_all

end RobotProgram.Kinematics
