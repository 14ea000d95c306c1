import Mathlib.Tactic.Common
import RobotProgram.Kinematics.Resolve
import RobotProgram.Proofs.Generation

/-!
# What a solution says of its angles

A goal is resolved by numeric routines: a closed form, the pose of some angles, its derivatives and
a solver of linear equations. The flag of a solution does not depend on how good these are. Least
squares tests the angles before each step and once more after the last one, and returns the angles
that it tested last (`Routines.refineFrom_walk`). So whatever the routines compute, the flag is the
test of the angles that the solution is made of, and an invalid solution has used all its steps
(`Solver.verdict_of_resolve`).
-/

namespace RobotProgram.Kinematics

open Scalar (nat wrapDegrees degrees)

/-- The numeric routines that goals are resolved by. -/
structure Routines (α : Type) where
  closedForm : Matrix4 α → Option (Angles α)
  chain : Angles α → Outcome (Matrix4 α)
  jacobian : Angles α → Outcome (Vector (PoseError α) 6)
  solve : List (List α) → Option (List α)

variable {α : Type} [Scalar α]

/-- The routines of a solver. -/
def Solver.routines (s : Solver α) : Routines α where
  closedForm := s.closedForm
  chain := s.chain?
  jacobian := s.jacobian
  solve := solve? 6

namespace Routines

/-- How far the pose of some angles is from a goal. -/
def poseError (R : Routines α) (goal : Matrix4 α) (angles : Angles α) :
    Outcome (PoseError α) := do
  let current ← R.chain angles
  return ⟨goal.position - current.position, Matrix4.orientationError current goal⟩

/-- One damped step of least squares. -/
def step (R : Routines α) (s : Solver α) (angles : Angles α) (e : PoseError α) :
    Outcome (Angles α) := do
  let j ← R.jacobian angles
  match R.solve (s.normalEquations j e) with
  | none => .error .singularSystem
  | some x =>
    return Vector.zipWith (fun q c =>
      q + (List.zipWith (· * ·) (Solver.PoseError.toList c) x).foldl (· + ·) (nat 0)) angles j

/-- Damped least squares with at most `fuel` more steps after `taken`. -/
def refineFrom (R : Routines α) (s : Solver α) (goal : Matrix4 α) :
    (fuel : Nat) → (taken : Int) → Angles α → Outcome (Solver.Refinement α)
  | 0, _, angles => do
    let e ← R.poseError goal angles
    return ⟨angles, s.options.maxIterations, s.converged e⟩
  | fuel + 1, taken, angles => do
    let e ← R.poseError goal angles
    if s.converged e then return ⟨angles, taken, true⟩
    else R.refineFrom s goal fuel (taken + 1) (← R.step s angles e)

/-- Damped least squares from a start. -/
def refine (R : Routines α) (s : Solver α) (goal : Matrix4 α) (start : Angles α) :
    Outcome (Solver.Refinement α) :=
  R.refineFrom s goal s.options.maxIterations.toNat 0 start

/-- The closed form if it reaches the goal, and else the outcome of least squares. -/
def solveGoal (R : Routines α) (s : Solver α) (goal : Matrix4 α) :
    Outcome (Solver.Refinement α) := do
  match R.closedForm goal with
  | some angles =>
    if s.converged (← R.poseError goal angles) then return ⟨angles, 0, true⟩
    else R.refine s goal angles
  | none => R.refine s goal (Vector.replicate 6 (nat 0))

/-- Axis values for a target in world coordinates. -/
def resolve (R : Routines α) (s : Solver α) (target : Frame α) (slots : Slots α)
    (owner : String) : Outcome (Solution α) := do
  let (external, goal) ← s.resolveExternal target slots
  let r ← R.solveGoal s goal
  return {
    internal := r.angles.map fun q => wrapDegrees (degrees q)
    external
    valid := r.converged
    errors := if r.converged then [] else [owner ++ ": The target is unreachable."]
    iterations := r.iterations }

end Routines

/-! ### Solvers and their routines -/

namespace Solver

/-- Refining is the loop of the solver's own routines. -/
theorem refineFrom_routines (s : Solver α) (goal : Matrix4 α) (fuel : Nat) (taken : Int)
    (angles : Angles α) :
    s.refineFrom goal fuel taken angles = s.routines.refineFrom s goal fuel taken angles := by
  induction fuel generalizing taken angles with
  | zero => rfl
  | succ fuel ih =>
    rw [refineFrom, Routines.refineFrom]
    simp only [ih]
    rfl

/-- A solver resolves targets by its own routines. -/
theorem resolve_routines (s : Solver α) : s.resolve = s.routines.resolve s := by
  have hrefine (goal : Matrix4 α) (start : Angles α) :
      s.refine goal start = s.routines.refine s goal start :=
    s.refineFrom_routines goal _ 0 start
  have hsolve (goal : Matrix4 α) : s.solveGoal goal = s.routines.solveGoal s goal := by
    unfold solveGoal Routines.solveGoal
    simp only [hrefine]
    rfl
  funext target slots owner
  unfold resolve Routines.resolve
  simp only [hsolve]

end Solver

/-! ### Steps -/

namespace Routines

variable {R : Routines α} {s : Solver α} {goal : Matrix4 α}

/-- Some steps of least squares, each from angles that do not reach the goal. -/
inductive Walk (R : Routines α) (s : Solver α) (goal : Matrix4 α) :
    Nat → Angles α → Angles α → Prop where
  | start (angles : Angles α) : Walk R s goal 0 angles angles
  | step {n : Nat} {angles next last : Angles α} {e : PoseError α} :
    R.poseError goal angles = .ok e → s.converged e = false → R.step s angles e = .ok next →
    Walk R s goal n next last → Walk R s goal (n + 1) angles last

/-- What least squares ends with: a walk from its start, the test of the last angles, and all its
steps taken unless these reach the goal. -/
structure Walked (R : Routines α) (s : Solver α) (goal : Matrix4 α) (fuel : Nat) (taken : Int)
    (start : Angles α) (r : Solver.Refinement α) (n : Nat) : Prop where
  walk : Walk R s goal n start r.angles
  iterations : r.iterations = taken + n
  le : n ≤ fuel
  tested : ∃ e, R.poseError goal r.angles = .ok e ∧ r.converged = s.converged e
  exhausted : r.converged = false → n = fuel

/-- Least squares tests the angles that it returns, however many steps it has left. -/
theorem refineFrom_walk {fuel : Nat} {taken : Int} {start : Angles α} {r : Solver.Refinement α}
    (hfuel : taken + fuel = s.options.maxIterations)
    (h : R.refineFrom s goal fuel taken start = .ok r) :
    ∃ n, Walked R s goal fuel taken start r n := by
  induction fuel generalizing taken start with
  | zero =>
    obtain ⟨e, he, h⟩ := Outcome.bind_eq_ok.mp h
    obtain rfl := Outcome.pure_eq_ok.mp h
    exact ⟨0, .start start, hfuel.symm, Nat.le_refl 0, ⟨e, he, rfl⟩, fun _ => rfl⟩
  | succ fuel ih =>
    obtain ⟨e, he, h⟩ := Outcome.bind_eq_ok.mp h
    split at h
    · next hconverged =>
      obtain rfl := Outcome.pure_eq_ok.mp h
      exact ⟨0, .start start, (Int.add_zero taken).symm, Nat.zero_le _,
        ⟨e, he, hconverged.symm⟩, nofun⟩
    · next hconverged =>
      obtain ⟨next, hnext, h⟩ := Outcome.bind_eq_ok.mp h
      obtain ⟨n, hwalk⟩ := ih (by push_cast at hfuel; omega) h
      refine ⟨n + 1, .step he ((Bool.not_eq_true _).mp hconverged) hnext hwalk.walk, ?_, ?_,
        hwalk.tested, fun hr => congrArg (· + 1) (hwalk.exhausted hr)⟩
      · rw [hwalk.iterations]
        push_cast
        omega
      · exact Nat.succ_le_succ hwalk.le

/-- Where the steps for a goal start: at the closed form, or else at zero. -/
def seed (R : Routines α) (goal : Matrix4 α) : Angles α :=
  (R.closedForm goal).getD (Vector.replicate 6 (nat 0))

/-- A goal is resolved by a walk from the closed form, or from zero. -/
theorem solveGoal_walk {r : Solver.Refinement α} (hmax : 0 ≤ s.options.maxIterations)
    (h : R.solveGoal s goal = .ok r) :
    ∃ n, Walked R s goal s.options.maxIterations.toNat 0 (R.seed goal) r n := by
  have hfuel : 0 + (s.options.maxIterations.toNat : Int) = s.options.maxIterations := by omega
  unfold solveGoal at h
  unfold seed
  split at h
  · next angles hangles =>
    rw [hangles]
    obtain ⟨e, he, h⟩ := Outcome.bind_eq_ok.mp h
    split at h
    · next hconverged =>
      obtain rfl := Outcome.pure_eq_ok.mp h
      exact ⟨0, .start angles, rfl, Nat.zero_le _, ⟨e, he, hconverged.symm⟩, nofun⟩
    · exact refineFrom_walk hfuel h
  · next hnone =>
    rw [hnone]
    exact refineFrom_walk hfuel h

/-- What a solution says of the angles that it is made of. -/
structure Verdict (R : Routines α) (s : Solver α) (target : Frame α) (slots : Slots α)
    (owner : String) (r : Solution α) (goal : Matrix4 α) (angles : Angles α) : Prop where
  external : s.resolveExternal target slots = .ok (r.external, goal)
  internal : r.internal = angles.map fun q => wrapDegrees (degrees q)
  valid : ∃ e, R.poseError goal angles = .ok e ∧ r.valid = s.converged e
  errors : r.errors = if r.valid then [] else [owner ++ ": The target is unreachable."]
  nonneg : 0 ≤ r.iterations
  le : r.iterations ≤ s.options.maxIterations
  exhausted : r.valid = false → r.iterations = s.options.maxIterations
  walk : Walk R s goal r.iterations.toNat (R.seed goal) angles
  unrefined : ∀ found e, R.closedForm goal = some found → R.poseError goal found = .ok e →
    s.converged e = true → angles = found ∧ r.iterations = 0 ∧ r.valid = true

/-- A walk from angles that reach the goal takes no step. -/
theorem Walk.eq_of_converged {n : Nat} {angles last : Angles α} {e : PoseError α}
    (h : Walk R s goal n angles last) (he : R.poseError goal angles = .ok e)
    (hconverged : s.converged e = true) : n = 0 ∧ last = angles := by
  cases h with
  | start => exact ⟨rfl, rfl⟩
  | step he' hmissed _ _ =>
    obtain rfl := Except.ok.inj (he.symm.trans he')
    cases hconverged.symm.trans hmissed

end Routines

/-- Whatever the numeric routines compute, a solution is valid exactly when the angles that it is
made of pass the test of the solver. They come from the closed form, or from zero, by as many steps
as the solution counts, at most as many as the options allow, and all of these if it is not valid.
A solver uses its own routines. -/
theorem Solver.verdict_of_resolve (s : Solver α) (hmax : 0 ≤ s.options.maxIterations)
    (R : Routines α) {target : Frame α} {slots : Slots α} {owner : String} {r : Solution α}
    (h : R.resolve s target slots owner = .ok r) :
    s.resolve = s.routines.resolve s ∧
      ∃ goal angles, R.Verdict s target slots owner r goal angles := by
  refine ⟨s.resolve_routines, ?_⟩
  obtain ⟨⟨external, goal⟩, hexternal, h⟩ := Outcome.bind_eq_ok.mp h
  obtain ⟨found, hfound, h⟩ := Outcome.bind_eq_ok.mp h
  obtain rfl := Outcome.pure_eq_ok.mp h
  obtain ⟨n, hwalked⟩ := Routines.solveGoal_walk hmax hfound
  have hn : found.iterations = n := by rw [hwalked.iterations, Int.zero_add]
  have hle := hwalked.le
  refine ⟨goal, found.angles, hexternal, rfl, hwalked.tested, rfl, ?_, ?_, ?_, ?_, ?_⟩
  · simp only [hn]
    omega
  · simp only [hn]
    omega
  · intro hinvalid
    have hall := hwalked.exhausted hinvalid
    simp only [hn]
    omega
  · simp only [hn, Int.toNat_natCast]
    exact hwalked.walk
  · intro angles e hangles he hconverged
    have hwalk := hwalked.walk
    rw [Routines.seed, hangles, Option.getD_some] at hwalk
    obtain ⟨hzero, hlast⟩ := hwalk.eq_of_converged he hconverged
    obtain ⟨e', he', hvalid⟩ := hwalked.tested
    rw [hlast, he] at he'
    obtain rfl := Except.ok.inj he'
    refine ⟨hlast, ?_, hvalid.trans hconverged⟩
    simp only [hn, hzero]
    rfl

/-! ### Routines that lead nowhere -/

/-- Routines without a closed form, whose pose never changes. -/
def idle : Routines Float where
  closedForm _ := none
  chain _ := .ok .one
  jacobian _ := .ok (Vector.replicate 6 ⟨.zero, .zero⟩)
  solve _ := some (List.replicate 6 0.0)

/-- A solver that gives up after two steps. -/
def benchSolver : Solver Float where
  robot := Program.Generator.benchRobot
  options := { (Options.default : Options Float) with maxIterations := 2 }
  lines := Vector.replicate 6 ⟨.zero, .unitZ⟩
  tool := .one

/-- A target out of reach. -/
def farTarget : Frame Float := ⟨⟨5000.0, 0.0, 0.0⟩, .unitX, .unitY⟩

/-- The pose stays away from the target, so both steps are taken. -/
theorem Solver.verdict_of_resolve_far :
    ∃ r, idle.resolve benchSolver farTarget noSlots "pick" = .ok r ∧ r.valid = false ∧
      r.iterations = 2 ∧ r.errors = ["pick: The target is unreachable."] ∧
      ∃ goal angles, idle.Verdict benchSolver farTarget noSlots "pick" r goal angles := by
  have hinvalid : ((idle.resolve benchSolver farTarget noSlots "pick").toOption.map (·.valid)) =
      some false := by
    decide +kernel
  cases hr : idle.resolve benchSolver farTarget noSlots "pick" with
  | error f =>
    rw [hr] at hinvalid
    cases hinvalid
  | ok r =>
    rw [hr] at hinvalid
    have hvalid : r.valid = false := Option.some_inj.mp hinvalid
    obtain ⟨-, goal, angles, hverdict⟩ := benchSolver.verdict_of_resolve (by decide) idle hr
    refine ⟨r, rfl, hvalid, hverdict.exhausted hvalid, ?_, goal, angles, hverdict⟩
    rw [hverdict.errors, hvalid]
    rfl

end RobotProgram.Kinematics
