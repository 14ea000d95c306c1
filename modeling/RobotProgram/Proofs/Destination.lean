import RobotProgram.Proofs.References

/-!
# Where movements go

The instruction of a movement to a named robot target refers to its destination by name, and the
symbol table keeps the first declaration of a name. `destination_line_iff` says whose declaration
that is: the one that stood under the name before the movement, and else the movement's own, with
the values of its own solution. So two movements under different work objects to a target of one
name share the joint values of the first, and a target that is declared on its own keeps its
external values undefined.
-/

namespace RobotProgram.Program.Generator

open Kinematics (Resolver Solution)

/-- The offers of a program before and after those of one of its valid actions. -/
theorem program_split [Resolver] {g : Generator} {before after : List Action} {a : Action}
    {os : List Offer} (h : g.program (before ++ a :: after) = .ok os) (hpasses : a.passes = true) :
    ∃ own rest, g.offers a = .ok own ∧
      os = ((before ++ a :: after).zipIdx.flatMap skipped ++ before.flatMap g.declared) ++
        (own ++ rest) := by
  obtain ⟨hemittable, rfl⟩ := program_eq_ok.mp h
  obtain ⟨own, hown⟩ := (hemittable a (by simp)).declarations hpasses
  refine ⟨own, after.flatMap g.declared ++ (before ++ a :: after).flatMap g.instructed, hown, ?_⟩
  have hdeclared : g.declared a = own := by rw [declared, if_pos hpasses, hown]; rfl
  simp [hdeclared]

/-- The offers before the target of a movement declare what stands there then, whichever actions are
skipped. -/
theorem sameTable_atTarget [Resolver] (g : Generator) (before : List Action) {m : Movement}
    {ps : List Offer} (hps : partOffers m = .ok ps) (actions : List Action) :
    (Buffers.acceptAll {} (actions.zipIdx.flatMap skipped ++ before.flatMap g.declared ++
      ps)).SameTable (atTarget (g.declaredBy before) m) := by
  unfold atTarget declaredBy
  rw [hps, Buffers.acceptAll_append, Buffers.acceptAll_append]
  exact ((sameTable_skipped actions).acceptAll _).acceptAll ps

/-- The line under the name that a movement to a named robot target refers to is the one that stood
there before, and else that of the movement's own solution. So it is the movement's own exactly when
no other one stood there. -/
theorem destination_line_iff [Resolver] {g : Generator} {before after : List Action} {m : Movement}
    {kind : MoveKind} {t : RobotTarget} {r₀ r : Run} {texts : String × String}
    (h : (g.generate (before ++ .movement m (some (.robotTarget t)) :: after)).run r₀ =
      (.ok texts, r))
    (hvalid : (Action.movement m (some (.robotTarget t))).isValid = .ok true)
    (hkind : m.kind = .known kind) (hname : t.name.truthy = true) :
    ∃ solution key line,
      (m.solve (some (.robotTarget t)) g.robot).outcome = .ok solution ∧
      (m.targetReference (some (.robotTarget t)) kind g.robot
        (m.toolName g.robot g.toolName)).outcome = .ok (.atom key) ∧
      (destination kind t solution).line = .ok line ∧
      r.buffers.lineOf key =
        ((atTarget (g.declaredBy before) m).lineOf key).or (some line) ∧
      (r.buffers.lineOf key = some line ↔
        ∀ other, (atTarget (g.declaredBy before) m).lineOf key = some other → other = line) := by
  obtain ⟨os, hprogram, hbuffers⟩ := generate_returns h
  have horderly := program_orderly hprogram
  obtain ⟨own, rest, hown, rfl⟩ := program_split hprogram (Action.passes_eq_true.mpr hvalid)
  rw [offers_robotMovement g hkind] at hown
  obtain ⟨ps, qs, hps, hqs, rfl⟩ := Outcome.both_eq_ok.mp hown
  obtain ⟨solution, key, line, hsolution, hkey, hline, rfl⟩ := solutionOffers_named hname hqs
  -- The first to declare the key is found before the movement, or it is the movement.
  have hlineOf : r.buffers.lineOf key =
      ((atTarget (g.declaredBy before) m).lineOf key).or (some line) := by
    have htable := sameTable_atTarget g before hps
      (before ++ .movement m (some (.robotTarget t)) :: after)
    rw [hbuffers, ← htable.lineOf key]
    rw [List.append_assoc ps, ← List.append_assoc, List.singleton_append] at horderly ⊢
    exact Buffers.lineOf_acceptAll_declare horderly.worded
  refine ⟨solution, key, line, hsolution, ?_, hline, hlineOf, ?_⟩
  · rw [targetReference_robotTarget kind _ hname hsolution, (symbolKey_eq_ok.mp hkey).2]
  · rw [hlineOf]
    cases (atTarget (g.declaredBy before) m).lineOf key with
    | none => simp
    | some other => simp

/-- An absolute joint movement to a target under a work object. -/
def fixtureAction (workObject : WorkObject) : Action :=
  .movement (benchMovement .absoluteJoint workObject) (some (.robotTarget (benchTarget "p10")))

/-- Two movements to a target under different work objects share the joint values of the first. -/
theorem destination_line_iff_fixture :
    letI := turnsToPoint
    let m := benchMovement .absoluteJoint fixture
    let t := benchTarget "p10"
    ∃ texts r, (bench.generate ([fixtureAction .default] ++ [fixtureAction fixture])).run {} =
        (.ok texts, r) ∧
      (∃ solution key line,
        (m.solve (some (.robotTarget t)) bench.robot).outcome = .ok solution ∧
        (m.targetReference (some (.robotTarget t)) .absoluteJoint bench.robot
          (m.toolName bench.robot bench.toolName)).outcome = .ok (.atom key) ∧
        (destination .absoluteJoint t solution).line = .ok line ∧
        r.buffers.lineOf key =
          ((atTarget (bench.declaredBy [fixtureAction .default]) m).lineOf key).or (some line) ∧
        (r.buffers.lineOf key = some line ↔ ∀ other,
          (atTarget (bench.declaredBy [fixtureAction .default]) m).lineOf key = some other →
            other = line)) ∧
      (∀ solution, (m.solve (some (.robotTarget t)) bench.robot).outcome = .ok solution →
        (destination .absoluteJoint t solution).line = .ok
          "CONST jointtarget p10_jt := [[100, 0, 0, 0, 0, 0], [9E9, 9E9, 9E9, 9E9, 9E9, 9E9]];") ∧
      r.buffers.lineOf (.text "p10_jt") = some
        "CONST jointtarget p10_jt := [[0, 0, 0, 0, 0, 0], [9E9, 9E9, 9E9, 9E9, 9E9, 9E9]];" := by
  let := turnsToPoint
  obtain ⟨texts, h⟩ := Outcome.run_of_isOk
    (x := bench.generate ([fixtureAction .default] ++ [fixtureAction fixture])) (s := {})
    (by decide +kernel)
  refine ⟨texts, _, h, destination_line_iff h ?_ rfl rfl, ?_, by decide +kernel⟩
  · exact Action.passes_eq_true.mp (by decide +kernel)
  · intro solution hsolution
    rw [solve_outcome] at hsolution
    obtain rfl := Except.ok.inj hsolution
    exact Outcome.toOption_eq_some.mp (by decide +kernel)

end RobotProgram.Program.Generator
