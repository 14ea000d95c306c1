import RobotProgram.Cell.Robot
import RobotProgram.Kinematics.LinearSystem
import RobotProgram.Kinematics.Subproblem

/-!
# The joint solver

The pose of the tool is the product of the rotations about the six axis lines, applied to the tool
in the zero pose. Joint angles for a pose come from a closed form for robots with a spherical
wrist, and from damped least squares where that misses.

Of several closed solutions the one with the smaller third and then the smaller fourth angle is
taken, the first of two that are equal.
-/

namespace RobotProgram.Kinematics

open Scalar (nat)

/-- A rotation axis: a point and a unit direction. -/
structure Line (α : Type) where
  point : Vector3 α
  direction : Vector3 α

/-- The settings of the solver. -/
structure Options (α : Type) where
  /-- The most steps of least squares. -/
  maxIterations : Int
  /-- The distance at which a position counts as reached. -/
  tolerance : α
  /-- The orientation error at which an orientation counts as reached. -/
  orientationTolerance : α
  /-- How much the steps of least squares are damped. -/
  damping : α

/-- Fifty steps, a micrometre, a millionth of a radian. -/
def Options.default {α : Type} [Scalar α] : Options α :=
  ⟨50, Scalar.ratio 1 1000, Scalar.ratio 1 1000000, Scalar.ratio 1 100⟩

/-- The number in a field, or a default. -/
def numberField (key : String) (es : List (Atom × Value)) (default : Float) : Outcome Float :=
  match field? key es with
  | some v => v.scalar
  | none => .ok default

/-- The options of a mapping, with defaults for what it leaves out. -/
def Options.ofEntries (es : List (Atom × Value)) : Outcome (Options Float) := do
  let d : Options Float := Options.default
  let iterations ← match field? "max_iterations" es with
    | some v => v.integer
    | none => pure d.maxIterations
  return ⟨iterations, ← numberField "tolerance" es d.tolerance,
    ← numberField "orientation_tolerance" es d.orientationTolerance,
    ← numberField "damping" es d.damping⟩

/-- A robot with its axis lines, ready to be solved for. -/
structure Solver (α : Type) where
  robot : Robot α
  options : Options α
  lines : Vector (Line α) 6
  /-- The tool in the zero pose. -/
  tool : Matrix4 α

/-- Six angles, in radians or in degrees. -/
abbrev Angles (α : Type) := Vector α 6

/-- A position error and an orientation error. -/
structure PoseError (α : Type) where
  position : Vector3 α
  orientation : Vector3 α

namespace Solver

variable {α : Type} [Scalar α]

/-- The axis line of a frame. -/
def lineOf (f : Frame α) : Outcome (Line α) := do
  return ⟨f.point, ← f.zaxis.unit⟩

/-- The solver for a robot. -/
def make (robot : Robot α) (options : Options α) : Outcome (Solver α) := do
  let lines ← robot.axisFrames.mapM lineOf
  return ⟨robot, options, lines, robot.toolFrame.toMatrix⟩

/-- The tool pose in base coordinates for angles in radians. -/
def chain (s : Solver α) (angles : Angles α) : Matrix4 α :=
  (s.lines.zip angles).foldl
    (fun t (line, angle) => t * .rotation line.direction angle line.point) .one * s.tool

/-- The tool pose, refused when an angle is infinite. -/
def chain? (s : Solver α) (angles : Angles α) : Outcome (Matrix4 α) :=
  if angles.any Scalar.infinite then .error .infiniteAngle else .ok (s.chain angles)

/-- How far the pose of some angles is from a goal. -/
def poseError (s : Solver α) (goal : Matrix4 α) (angles : Angles α) : Outcome (PoseError α) := do
  let current ← s.chain? angles
  return ⟨goal.position - current.position, Matrix4.orientationError current goal⟩

/-- Whether an error is within the tolerances. -/
def converged (s : Solver α) (e : PoseError α) : Bool :=
  Scalar.le e.position.norm s.options.tolerance &&
    Scalar.le e.orientation.norm s.options.orientationTolerance

/-- The rotation about an axis of the robot. -/
def axisTurn (s : Solver α) (i : Fin 6) (angle : α) : Matrix4 α :=
  let line := s.lines.get i
  .rotation line.direction angle line.point

/-- The center of the wrist in the zero pose. -/
def wristCenter (s : Solver α) : Vector3 α := (s.lines.get 4).point

/-- The motion of the first three axes. -/
def armMotion (s : Solver α) (q1 q2 q3 : α) : Matrix4 α :=
  s.axisTurn 0 q1 * s.axisTurn 1 q2 * s.axisTurn 2 q3

/-- Angles of the first three axes that bring the center of the wrist to a point. -/
def armAngles? (s : Solver α) (center : Vector3 α) : Option (α × α × α) :=
  let l1 := s.lines.get 0
  let l2 := s.lines.get 1
  let l3 := s.lines.get 2
  let q1 := turnOnto s.wristCenter center l1.direction l1.point
  let turned := (s.axisTurn 0 q1).inverse.apply center
  match turnToDistance s.wristCenter l2.point (turned - l2.point).norm l3.direction l3.point with
  | [] => none
  | elbow :: elbows =>
    let q3 := smallestBy wrappedSize elbow elbows
    let q2 := turnOnto ((s.axisTurn 2 q3).apply s.wristCenter) turned l2.direction l2.point
    some (q1, q2, q3)

/-- Angles of the last three axes that turn the hand like a motion. -/
def wristAngles? (s : Solver α) (wrist : Matrix4 α) : Option (α × α × α) :=
  let w4 := (s.lines.get 3).direction
  let w5 := (s.lines.get 4).direction
  let w6 := (s.lines.get 5).direction
  match turnTwice w6 (wrist.turn w6) w4 w5 with
  | [] => none
  | first :: others =>
    let (q4, q5) := smallestBy (fun t => wrappedSize t.1) first others
    let r45 := Matrix4.rotation w4 q4 .zero * Matrix4.rotation w5 q5 .zero
    some (q4, q5, turnOnto w5 (r45.turnBack.turn (wrist.turn w5)) w6 .zero)

/-- Angles that reach a goal in base coordinates, in closed form: the arm brings the center of the
wrist to its place, and the wrist turns the hand. -/
def closedForm (s : Solver α) (goal : Matrix4 α) : Option (Angles α) := do
  let g := goal * s.tool.inverse
  let (q1, q2, q3) ← s.armAngles? (g.apply s.wristCenter)
  let (q4, q5, q6) ← s.wristAngles? ((s.armMotion q1 q2 q3).inverse * g)
  return #v[q1, q2, q3, q4, q5, q6]

/-- The change of the pose with each angle, by finite differences. -/
def jacobian (s : Solver α) (angles : Angles α) : Outcome (Vector (PoseError α) 6) := do
  let delta : α := Scalar.ratio 1 10000000
  let current ← s.chain? angles
  return Vector.ofFn fun i =>
    let moved := s.chain (angles.mapIdx fun j a => if j == i.val then a + delta else a)
    ⟨(moved.position - current.position).divide delta,
      (Matrix4.orientationError current moved).divide delta⟩

/-- The six components of an error. -/
def PoseError.toList (e : PoseError α) : List α := e.position.toList ++ e.orientation.toList

/-- The scalar product of two errors. -/
def PoseError.dot (e f : PoseError α) : α :=
  (List.zipWith (· * ·) (PoseError.toList e) (PoseError.toList f)).foldl (· + ·) (nat 0)

/-- The `i`-th row of a matrix given by columns. -/
def rowOf (columns : Vector (PoseError α) 6) (i : Nat) : List α :=
  columns.toList.map fun c => (PoseError.toList c)[i]?.getD (nat 0)

/-- The equations `(J Jᵀ + damping² I) x = e` of a damped step. -/
def normalEquations (s : Solver α) (j : Vector (PoseError α) 6) (e : PoseError α) :
    List (List α) :=
  (List.range 6).map fun i =>
    (List.range 6).map (fun k =>
      (List.zipWith (· * ·) (rowOf j i) (rowOf j k)).foldl (· + ·) (nat 0) +
        (if i = k then s.options.damping * s.options.damping else nat 0)) ++
    [(PoseError.toList e)[i]?.getD (nat 0)]

/-- One damped step of least squares. -/
def step (s : Solver α) (angles : Angles α) (e : PoseError α) : Outcome (Angles α) := do
  let j ← s.jacobian angles
  match solve? 6 (s.normalEquations j e) with
  | none => .error .singularSystem
  | some x =>
    return Vector.zipWith (fun q c =>
      q + (List.zipWith (· * ·) (PoseError.toList c) x).foldl (· + ·) (nat 0)) angles j

/-- Angles, how many steps were taken, and whether they reach the goal. -/
structure Refinement (α : Type) where
  angles : Angles α
  iterations : Int
  converged : Bool

/-- Damped least squares with at most `fuel` more steps after `taken`. -/
def refineFrom (s : Solver α) (goal : Matrix4 α) :
    (fuel : Nat) → (taken : Int) → Angles α → Outcome (Refinement α)
  | 0, _, angles => do
    let e ← s.poseError goal angles
    return ⟨angles, s.options.maxIterations, s.converged e⟩
  | fuel + 1, taken, angles => do
    let e ← s.poseError goal angles
    if s.converged e then return ⟨angles, taken, true⟩
    else s.refineFrom goal fuel (taken + 1) (← s.step angles e)

/-- Damped least squares from a start. -/
def refine (s : Solver α) (goal : Matrix4 α) (start : Angles α) : Outcome (Refinement α) :=
  s.refineFrom goal s.options.maxIterations.toNat 0 start

end Solver

end RobotProgram.Kinematics
