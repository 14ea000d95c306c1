import RobotProgram.Proofs.Declarations

/-!
# No dangling references

What the instruction of a movement refers to is declared by the program: its speed and its work
object unless the controller knows them, and its target by the name that the instruction uses. A
joint target refers to its named parts, and these stand before it in the symbol table. The reference
of an instruction is computed without the symbol table, so `Referenced` says for each kind of target
which name that is, and that the table has it.
-/

namespace RobotProgram

/-- A step that needs the result of a logged computation and logs nothing. -/
theorem Logged.outcome_bind {α β : Type} (x : Logged α) (f : α → Outcome β) :
    Logged.outcome (do f (← x)) = (do f (← x.outcome)) := by
  change (ExceptT.bind x (fun a => liftM (f a)) []).1 = _
  simp only [Logged.outcome, ExceptT.bind, ExceptT.mk, ExceptT.run, bind, StateT.bind]
  rcases x [] with ⟨outcome, events⟩
  cases outcome <;> rfl

namespace Program

/-- Something is declared under a name. -/
def Buffers.Registers (b : Buffers) (name : Value) : Prop :=
  ∃ key, symbolKey name = .ok key ∧ b.Holds key

open Kinematics (Resolver Solution)

/-- What the instruction of a movement refers to is declared. -/
structure Referenced [Resolver] (g : Generator) (b : Buffers) (m : Movement) (kind : MoveKind)
    (target : Option Action) : Prop where
  /-- A speed of its own is declared. -/
  speed : ∃ s, m.speed = some s ∧ (s.predefined.truthy = false → b.Registers s.name)
  /-- A work object of its own is declared. -/
  workObject : m.workObject.isDefault = false → b.Registers m.workObject.name
  /-- A named robot target is referred to by its own name, or by that of its joint target. -/
  robotTarget : ∀ t, target = some (.robotTarget t) → t.name.truthy = true →
    (m.targetReference target kind g.robot (m.toolName g.robot g.toolName)).outcome =
        .ok (Generator.destinationName kind t) ∧
      b.Registers (Generator.destinationName kind t)
  /-- A joint target is referred to by its name, or by those of its parts in its place; a linear or
  joint movement converts it. -/
  jointTarget : ∀ t, target = some (.jointTarget t) →
    ∃ reference, t.reference = .ok reference ∧
      (m.targetReference target kind g.robot (m.toolName g.robot g.toolName)).outcome =
        .ok (if kind = .absoluteJoint then reference
          else .text ("CalcRobT(" ++ reference.toText ++ ", " ++
            (m.toolName g.robot g.toolName).toText ++ "\\WObj:=" ++
            m.workObject.name.toText ++ ")")) ∧
      if t.name.truthy then reference = t.name ∧ b.Registers t.name
      else ∀ name ∈ t.partNames, b.Registers name

namespace Generator

/-! ### What is offered is registered -/

/-- A valid action of a program can be declared, and every name that it offers is registered. -/
theorem registers_of_mem [Resolver] {g : Generator} {actions : List Action} {r₀ r : Run}
    {texts : String × String} (h : (g.generate actions).run r₀ = (.ok texts, r)) {a : Action}
    (ha : a ∈ actions) (hvalid : a.isValid = .ok true) :
    ∃ os, g.offers a = .ok os ∧ ∀ name, OfferedIn os name → r.buffers.Registers name := by
  obtain ⟨all, hprogram, hbuffers⟩ := generate_returns h
  obtain ⟨hemittable, rfl⟩ := program_eq_ok.mp hprogram
  have hpasses := Action.passes_eq_true.mpr hvalid
  obtain ⟨os, hos⟩ := (hemittable a ha).declarations hpasses
  refine ⟨os, hos, ?_⟩
  rintro name ⟨key, hkey, o, ho, hdeclares⟩
  have hmem : o ∈ actions.flatMap g.declared := by
    refine List.mem_flatMap.mpr ⟨a, ha, ?_⟩
    rw [declared, if_pos hpasses, hos]
    exact ho
  rw [hbuffers]
  exact ⟨key, hkey, Buffers.holds_of_offered
    (List.mem_append_right _ (List.mem_append_left _ hmem)) hdeclares⟩

/-- A movement offers its speed and its work object, unless the controller knows them. -/
theorem offeredIn_partOffers {m : Movement} {os : List Offer} (h : partOffers m = .ok os) :
    (∃ s, m.speed = some s ∧ (s.predefined.truthy = false → OfferedIn os s.name)) ∧
      (m.workObject.isDefault = false → OfferedIn os m.workObject.name) := by
  obtain ⟨xs, ys, hx, hy, rfl⟩ := Outcome.both_eq_ok.mp h
  obtain ⟨s, hs, hx⟩ := Outcome.bind_eq_ok.mp hx
  refine ⟨⟨s, ?_, fun hpredefined => ?_⟩, fun hdefault => ?_⟩
  · cases hspeed : m.speed with
    | none => simp [hspeed, present] at hs
    | some s' =>
      rw [hspeed] at hs
      rw [Except.ok.inj hs]
  · rw [speedOffers, hpredefined] at hx
    obtain ⟨line, -, hx⟩ := Outcome.bind_eq_ok.mp hx
    exact (offeredIn_offerAs hx).mono (List.subset_append_left _ _)
  · rw [workObjectOffers, hdefault] at hy
    exact (offeredIn_offerAs hy).mono (List.subset_append_right _ _)

/-- The speed and the work object of a movement are registered with what it offers. -/
theorem registers_parts {b : Buffers} {m : Movement} {ps qs : List Offer}
    (hps : partOffers m = .ok ps)
    (hregisters : ∀ name, OfferedIn (ps ++ qs) name → b.Registers name) :
    (∃ s, m.speed = some s ∧ (s.predefined.truthy = false → b.Registers s.name)) ∧
      (m.workObject.isDefault = false → b.Registers m.workObject.name) := by
  have hoffered {name : Value} (h : OfferedIn ps name) : b.Registers name :=
    hregisters name (h.mono (List.subset_append_left _ _))
  obtain ⟨⟨s, hs, hspeed⟩, hworkObject⟩ := offeredIn_partOffers hps
  exact ⟨⟨s, hs, fun hpredefined => hoffered (hspeed hpredefined)⟩,
    fun hdefault => hoffered (hworkObject hdefault)⟩

/-- A joint target offers its name, and the names of its parts. -/
theorem offeredIn_jointTargetOffers {g : Generator} {t : JointTarget} {os : List Offer}
    (h : g.jointTargetOffers t = .ok os) :
    (t.name.truthy = true → OfferedIn os t.name) ∧ ∀ name ∈ t.partNames, OfferedIn os name := by
  obtain ⟨xs, ys, hx, hy, rfl⟩ := Outcome.both_eq_ok.mp h
  refine ⟨fun hname => ?_, fun name hname => ?_⟩
  · rw [ownJointOffers, if_pos hname] at hy
    obtain ⟨line, -, hy⟩ := Outcome.bind_eq_ok.mp hy
    obtain ⟨messages, -, hy⟩ := Outcome.bind_eq_ok.mp hy
    exact (offeredIn_offerAs hy).mono (List.subset_append_right _ _)
  · exact (offeredIn_jointPartOffers hx hname).mono (List.subset_append_left _ _)

/-! ### References -/

/-- A joint target that can be declared can be referred to. -/
theorem reference_isOk {g : Generator} {t : JointTarget} {os : List Offer}
    (h : g.jointTargetOffers t = .ok os) : ∃ reference, t.reference = .ok reference := by
  obtain ⟨xs, ys, hx, -, -⟩ := Outcome.both_eq_ok.mp h
  obtain ⟨rs, es, hrobot, hexternal, -⟩ := Outcome.both_eq_ok.mp hx
  obtain ⟨robot, hrobot, -⟩ := Outcome.bind_eq_ok.mp hrobot
  obtain ⟨external, hexternal, -⟩ := Outcome.bind_eq_ok.mp hexternal
  unfold JointTarget.reference JointTarget.valueText
  rw [hrobot, hexternal]
  cases t.name.truthy with
  | true => exact ⟨_, rfl⟩
  | false => exact ⟨_, rfl⟩

/-- The reference of a movement to a joint target. -/
theorem targetReference_jointTarget [Resolver] (m : Movement) (t : JointTarget) (kind : MoveKind)
    (robot : Robot Float) (tool : Value) {reference : Value} (h : t.reference = .ok reference) :
    (m.targetReference (some (.jointTarget t)) kind robot tool).outcome =
      .ok (if kind = .absoluteJoint then reference
        else .text ("CalcRobT(" ++ reference.toText ++ ", " ++ tool.toText ++ "\\WObj:=" ++
          m.workObject.name.toText ++ ")")) := by
  simp only [Movement.targetReference, Movement.poseReference, h]
  cases kind <;> rfl

/-- A movement to a named robot target refers to its destination. -/
theorem targetReference_robotTarget [Resolver] {m : Movement} {t : RobotTarget} (kind : MoveKind)
    {robot : Robot Float} (tool : Value) (hname : t.name.truthy = true)
    {solution : Solution Float}
    (h : (m.solve (some (.robotTarget t)) robot).outcome = .ok solution) :
    (m.targetReference (some (.robotTarget t)) kind robot tool).outcome =
      .ok (destinationName kind t) := by
  simp only [Movement.targetReference, Movement.poseReference, hname, if_true]
  cases kind with
  | absoluteJoint =>
    rw [Logged.outcome_bind, h]
    change JointTarget.reference _ = _
    rw [JointTarget.reference]
    exact if_pos ((destinationName_truthy .absoluteJoint t).trans hname)
  | linear => rfl
  | joint => rfl

/-- What a valid movement of a known type refers to is registered. -/
theorem referenced_of_mem [Resolver] {g : Generator} {actions : List Action} {r₀ r : Run}
    {texts : String × String} (h : (g.generate actions).run r₀ = (.ok texts, r)) {m : Movement}
    {target : Option Action} (ha : .movement m target ∈ actions)
    (hvalid : (Action.movement m target).isValid = .ok true) {kind : MoveKind}
    (hkind : m.kind = .known kind) : Referenced g r.buffers m kind target := by
  obtain ⟨os, hos, hregisters⟩ := registers_of_mem h ha hvalid
  obtain ⟨t, rfl⟩ | ⟨t, rfl⟩ := Action.target_of_valid hvalid
  · -- A joint target is referred to by its name, or written with the names of its parts.
    rw [offers] at hos
    obtain ⟨ps, qs, hps, hqs, rfl⟩ := Outcome.both_eq_ok.mp hos
    obtain ⟨js, is, hjs, -, rfl⟩ := Outcome.both_eq_ok.mp hqs
    obtain ⟨hspeed, hworkObject⟩ := registers_parts hps hregisters
    obtain ⟨hname, hparts⟩ := offeredIn_jointTargetOffers hjs
    have hmem {name : Value} (hoffered : OfferedIn js name) : r.buffers.Registers name :=
      hregisters name (hoffered.mono (by simp))
    refine ⟨hspeed, hworkObject, by simp, ?_⟩
    rintro t ⟨⟩
    obtain ⟨reference, hreference⟩ := reference_isOk hjs
    refine ⟨reference, hreference, targetReference_jointTarget m t kind _ _ hreference, ?_⟩
    cases htruthy : t.name.truthy with
    | true =>
      rw [JointTarget.reference, if_pos htruthy] at hreference
      exact ⟨(Except.ok.inj hreference).symm, hmem (hname htruthy)⟩
    | false => exact fun name hpart => hmem (hparts name hpart)
  · -- A robot target is referred to by the name of its destination.
    rw [offers_robotMovement g hkind] at hos
    obtain ⟨ps, qs, hps, hqs, rfl⟩ := Outcome.both_eq_ok.mp hos
    obtain ⟨hspeed, hworkObject⟩ := registers_parts hps hregisters
    refine ⟨hspeed, hworkObject, ?_, by simp⟩
    rintro t ⟨⟩ hname
    obtain ⟨solution, key, line, hsolution, hkey, -, rfl⟩ := solutionOffers_named hname hqs
    refine ⟨targetReference_robotTarget kind _ hname hsolution, hregisters _ ?_⟩
    exact ⟨key, hkey, _, List.mem_append_right _ (List.mem_singleton_self _), rfl⟩

/-- The parts of a registered joint target stand before it. -/
theorem parts_before [Resolver] {g : Generator} {actions : List Action} {r₀ r : Run}
    {texts : String × String} (h : (g.generate actions).run r₀ = (.ok texts, r)) {j : Nat}
    {key : Atom} {t : JointTarget}
    (hj : r.buffers.symbols[j]? = some (key, .action (.jointTarget t))) {name : Value}
    (hname : name ∈ t.partNames) :
    ∃ k i s, symbolKey name = .ok k ∧ i < j ∧ r.buffers.symbols[i]? = some s ∧
      s.1.finds k = true := by
  obtain ⟨os, hprogram, hbuffers⟩ := generate_returns h
  rw [hbuffers] at hj ⊢
  -- The offer that the symbol comes from: its parts are declared by the offers before it.
  obtain ⟨before, line, problems, after, rfl, rfl⟩ := Buffers.exists_offer_of_symbol hj
  obtain ⟨k, hk, o, ho, hdeclares⟩ :=
    (program_orderly hprogram).prepared before key t line problems after rfl name hname
  obtain ⟨s, hs, hfinds⟩ := Buffers.holds_of_offered (b := {}) ho hdeclares
  obtain ⟨i, hi, rfl⟩ := List.mem_iff_getElem.mp hs
  refine ⟨k, i, _, hk, hi, ?_, hfinds⟩
  rw [Buffers.acceptAll_append]
  exact (List.prefix_iff_getElem?.mp (Buffers.symbols_prefix_acceptAll _ _)) i hi

/-- A returned program has no dangling references: what its movements refer to is declared, and what
a declared joint target refers to is declared before it. -/
theorem references_declared_before_use [Resolver] {g : Generator} {actions : List Action}
    {r₀ r : Run} {texts : String × String} (h : (g.generate actions).run r₀ = (.ok texts, r)) :
    (∀ m target kind, .movement m target ∈ actions →
        (Action.movement m target).isValid = .ok true → m.kind = .known kind →
        Referenced g r.buffers m kind target) ∧
      ∀ (j : Nat) key t, r.buffers.symbols[j]? = some (key, .action (.jointTarget t)) →
        ∀ name ∈ t.partNames, ∃ k i s, symbolKey name = .ok k ∧ i < j ∧
          r.buffers.symbols[i]? = some s ∧ s.1.finds k = true :=
  ⟨fun _ _ _ ha hvalid hkind => referenced_of_mem h ha hvalid hkind,
    fun _ _ _ hj _ hname => parts_before h hj hname⟩

/-- A joint target with a named part. -/
def pick : JointTarget :=
  .make (.text "pick") ⟨Vector.replicate 6 0.0, .text "home", .var⟩ .undefined .const

/-- A movement with a speed and a work object of its own. -/
def pickMovement : Movement :=
  { benchMovement .linear fixture with
    speed := some
      ⟨.text "creep", .float 1.0, .float 1.0, .float 1.0, .float 1.0, .bool false, false⟩ }

/-- A movement to a robot target, then one to a joint target. -/
def pickActions : List Action :=
  [.movement (benchMovement .absoluteJoint .default) (some (.robotTarget (benchTarget "p10"))),
    .movement pickMovement (some (.jointTarget pick))]

/-- The parts of a declared joint target, none for other things. -/
def partsOf : Declared → List Value
  | .action (.jointTarget t) => t.partNames
  | _ => []

/-- A declaration with parts is that of a joint target with a named one. -/
theorem exists_mem_partNames {d : Declared} (h : (!(partsOf d).isEmpty) = true) :
    ∃ t, d = .action (.jointTarget t) ∧ ∃ name, name ∈ t.partNames := by
  unfold partsOf at h
  split at h
  · exact ⟨_, rfl, List.exists_mem_of_ne_nil _ (by simpa using h)⟩
  · simp at h

/-- Both movements refer to what is declared, and the joint target comes after its part. -/
theorem references_declared_before_use_pick :
    letI := turnsToPoint
    ∃ texts r, (bench.generate pickActions).run {} = (.ok texts, r) ∧
      Referenced bench r.buffers (benchMovement .absoluteJoint .default) .absoluteJoint
        (some (.robotTarget (benchTarget "p10"))) ∧
      Referenced bench r.buffers pickMovement .linear (some (.jointTarget pick)) ∧
      ∃ key t, r.buffers.symbols[4]? = some (key, .action (.jointTarget t)) ∧
        ∃ name ∈ t.partNames, ∃ k i s, symbolKey name = .ok k ∧ i < 4 ∧
          r.buffers.symbols[i]? = some s ∧ s.1.finds k = true := by
  let := turnsToPoint
  obtain ⟨texts, h⟩ :=
    Outcome.run_of_isOk (x := bench.generate pickActions) (s := {}) (by decide +kernel)
  obtain ⟨hmovements, hparts⟩ := references_declared_before_use h
  have hfourth : ((bench.generate pickActions).run {}).2.buffers.symbols[4]?.any
      (fun s => !(partsOf s.2).isEmpty) = true := by
    decide +kernel
  refine ⟨texts, _, h, hmovements _ _ _ (by simp [pickActions])
      (Action.passes_eq_true.mp (by decide +kernel)) rfl,
    hmovements _ _ _ (by simp [pickActions]) (Action.passes_eq_true.mp (by decide +kernel)) rfl, ?_⟩
  generalize ((bench.generate pickActions).run {}).2.buffers = b at hparts hfourth
  obtain ⟨⟨key, d⟩, hsymbol, hd⟩ := (Option.any_eq_true _ _).mp hfourth
  obtain ⟨t, rfl, name, hname⟩ := exists_mem_partNames hd
  exact ⟨key, t, hsymbol, name, hname, hparts 4 key t hsymbol name hname⟩

end Generator

end Program

end RobotProgram
