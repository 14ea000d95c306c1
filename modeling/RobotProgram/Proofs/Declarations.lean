import RobotProgram.Proofs.Symbols

/-!
# The order of declarations

The offers of an action are orderly: every declaration has a line, and a joint target is declared
after its named parts. Orderly offers may follow each other, so those of a program are orderly
(`program_orderly`), from which the order of the symbol table follows.
-/

namespace RobotProgram

/-- The names of the parts that a joint target refers to. -/
def JointTarget.partNames (t : JointTarget) : List Value :=
  (t.robot.toList.map (·.name) ++ t.external.toList.map (·.name)).filter Value.truthy

namespace Program

/-- A name is declared by one of some offers. -/
def OfferedIn (os : List Offer) (name : Value) : Prop :=
  ∃ key, symbolKey name = .ok key ∧ ∃ o ∈ os, o.Declares key

/-- A name that some offers declare is declared by more of them. -/
theorem OfferedIn.mono {os os' : List Offer} {name : Value} (h : OfferedIn os name)
    (hsub : os ⊆ os') : OfferedIn os' name := by
  obtain ⟨key, hkey, o, ho, hdeclares⟩ := h
  exact ⟨key, hkey, o, hsub ho, hdeclares⟩

/-- Offers that may follow others: every declaration has a line, and a joint target comes after its
named parts. -/
structure Orderly (earlier os : List Offer) : Prop where
  worded : ∀ o ∈ os, o.Worded
  prepared : ∀ before key t line problems after,
    os = before ++ .declare key (.action (.jointTarget t)) line problems :: after →
      ∀ name ∈ t.partNames, OfferedIn (earlier ++ before) name

namespace Orderly

variable {earlier os os' : List Offer}

/-- No offers may follow any others. -/
theorem nil : Orderly earlier [] := ⟨by simp, by simp⟩

/-- Diagnostics and instructions may always follow. -/
theorem of_forall (h : ∀ o ∈ os, ∀ key, ¬o.Declares key) : Orderly earlier os := by
  refine ⟨fun o ho => ?_, ?_⟩
  · cases o with
    | declare key d line problems => exact (h _ ho key rfl).elim
    | report problems => trivial
    | instruct line => trivial
  · rintro before key t line problems after rfl
    exact (h _ (List.mem_append_right _ List.mem_cons_self) key rfl).elim

/-- A declaration may follow if it has a line and its parts are there. -/
theorem declare {key : Atom} {d : Declared} {line : String} {problems : List String}
    (hline : line.isEmpty = false)
    (hparts : ∀ t, d = .action (.jointTarget t) → ∀ name ∈ t.partNames, OfferedIn earlier name) :
    Orderly earlier [.declare key d line problems] := by
  refine ⟨by simpa [Offer.Worded] using hline, fun before k t l ps after heq => ?_⟩
  obtain ⟨rfl, heq⟩ | ⟨-, heq⟩ := List.singleton_eq_append_iff.mp heq
  · obtain ⟨heq, -⟩ := List.cons.inj heq
    obtain ⟨-, hd, -⟩ := Offer.declare.inj heq
    rw [List.append_nil]
    exact hparts t hd
  · cases heq

/-- Orderly offers may follow each other. -/
theorem append (h : Orderly earlier os) (h' : Orderly (earlier ++ os) os') :
    Orderly earlier (os ++ os') := by
  refine ⟨fun o ho => ?_, fun before key t line problems after heq => ?_⟩
  · obtain ho | ho := List.mem_append.mp ho
    · exact h.worded o ho
    · exact h'.worded o ho
  · rw [List.append_eq_append_iff] at heq
    obtain ⟨rest, rfl, heq⟩ | ⟨rest, rfl, heq⟩ := heq
    · rw [← List.append_assoc]
      exact h'.prepared rest key t line problems after heq
    · -- The declaration is among the first offers, or it is the first of the others.
      obtain ⟨rfl, heq⟩ | ⟨rest, rfl, -⟩ := List.cons_eq_append_iff.mp heq
      · have hfirst := h'.prepared [] key t line problems after heq.symm
        simpa using hfirst
      · exact h.prepared before key t line problems rest rfl

/-- Orderly lists of offers may follow each other. -/
theorem flatMap {α : Type} {f : α → List Offer} (h : ∀ earlier a, Orderly earlier (f a))
    (earlier : List Offer) (as : List α) : Orderly earlier (as.flatMap f) := by
  induction as generalizing earlier with
  | nil => exact .nil
  | cons a as ih =>
    rw [List.flatMap_cons]
    exact (h earlier a).append (ih (earlier ++ f a))

end Orderly

namespace Generator

open Kinematics (Resolver Solution)

/-! ### The offers of an action -/

/-- Two outcomes together are orderly when the second may follow the first. -/
theorem orderly_both {earlier : List Offer} {o p : Outcome (List Offer)}
    (ho : o.Gives (Orderly earlier))
    (hp : ∀ os, o = .ok os → p.Gives (Orderly (earlier ++ os))) :
    (o.both p).Gives (Orderly earlier) := by
  intro os h
  obtain ⟨xs, ys, hx, hy, rfl⟩ := Outcome.both_eq_ok.mp h
  exact (ho xs hx).append (hp xs hx ys hy)

/-- A declaration under a name is orderly if it has a line and its parts are there. -/
theorem orderly_offerAs {earlier : List Offer} {name : Value} {d : Declared} {line : String}
    {problems : List String} (hline : line.isEmpty = false)
    (hparts : ∀ t, d = .action (.jointTarget t) → ∀ n ∈ t.partNames, OfferedIn earlier n) :
    (offerAs name d line problems).Gives (Orderly earlier) := by
  unfold offerAs
  refine Outcome.Gives.bind fun key _ => ?_
  exact Outcome.Gives.ok (.declare hline hparts)

/-- The declaration of a named thing has a line. -/
theorem declarationText_isEmpty {name : Value} (hname : name.truthy = true) (storage : Storage)
    (type value : String) : (declarationText storage type name value).isEmpty = false := by
  simp [declarationText, hname]

/-- The offers of robot joints are orderly. -/
theorem orderly_robotJointsOffers (earlier : List Offer) (p : RobotJoints) :
    (robotJointsOffers p).Gives (Orderly earlier) := by
  unfold robotJointsOffers
  by_cases hname : p.name.truthy
  · rw [if_pos hname]
    exact orderly_offerAs (declarationText_isEmpty hname _ _ _) (by simp)
  · rw [if_neg hname]
    exact .ok .nil

/-- The offers of external joints are orderly. -/
theorem orderly_externalJointsOffers (earlier : List Offer) (p : ExternalJoints) :
    (externalJointsOffers p).Gives (Orderly earlier) := by
  unfold externalJointsOffers
  by_cases hname : p.name.truthy
  · rw [if_pos hname]
    exact orderly_offerAs (declarationText_isEmpty hname _ _ _) (by simp)
  · rw [if_neg hname]
    exact .ok .nil

/-- The offers of a speed are orderly. -/
theorem orderly_speedOffers (earlier : List Offer) (s : Speed) :
    (speedOffers s).Gives (Orderly earlier) := by
  unfold speedOffers
  cases hpredefined : s.predefined.truthy with
  | true => exact .ok .nil
  | false =>
    refine Outcome.Gives.bind fun line hline => ?_
    refine orderly_offerAs ?_ (by simp)
    simp only [Speed.declaration, hpredefined, Bool.false_eq_true, if_false] at hline
    obtain ⟨value, -, hline⟩ := Outcome.bind_eq_ok.mp hline
    rw [← Outcome.pure_eq_ok.mp hline]
    simp

/-- The offers of a work object are orderly. -/
theorem orderly_workObjectOffers (earlier : List Offer) (w : WorkObject) :
    (workObjectOffers w).Gives (Orderly earlier) := by
  unfold workObjectOffers
  cases hdefault : w.isDefault with
  | true => exact .ok .nil
  | false =>
    -- Without a name there is no key, and nothing is offered.
    intro os hos
    obtain ⟨key, hkey, -⟩ := Outcome.bind_eq_ok.mp hos
    obtain ⟨hname, -⟩ := symbolKey_eq_ok.mp hkey
    refine orderly_offerAs ?_ (by simp) os hos
    simp [WorkObject.declaration, hdefault, WorkObject.isValid, hname]

/-- A declaration that needs a name and a value has a line. -/
theorem isEmpty_of_named {name : Value} (hname : name.truthy = true) {storage : Storage}
    {type line : String} {value : Outcome String}
    (h : (if name.truthy then declarationText storage type name <$> value else .ok "") =
      .ok line) : line.isEmpty = false := by
  rw [if_pos hname] at h
  obtain ⟨text, -, rfl⟩ := Outcome.map_eq_ok.mp h
  exact declarationText_isEmpty hname _ _ _

/-- The offers of a robot target are orderly. -/
theorem orderly_robotTargetOffers (earlier : List Offer) (t : RobotTarget) :
    (robotTargetOffers t).Gives (Orderly earlier) := by
  unfold robotTargetOffers
  by_cases hname : t.name.truthy
  · rw [if_pos hname]
    refine Outcome.Gives.bind fun line hline => ?_
    exact orderly_offerAs (isEmpty_of_named hname hline) (by simp)
  · rw [if_neg hname]
    exact .ok .nil

/-- A declaration under a name is offered under it. -/
theorem offeredIn_offerAs {name : Value} {d : Declared} {line : String} {problems : List String}
    {os : List Offer} (h : offerAs name d line problems = .ok os) : OfferedIn os name := by
  obtain ⟨key, hkey, h⟩ := Outcome.bind_eq_ok.mp h
  obtain rfl := Outcome.pure_eq_ok.mp h
  exact ⟨key, hkey, _, List.mem_singleton_self _, rfl⟩

/-- A movement to a named robot target offers the declaration of its destination. -/
theorem solutionOffers_named [Resolver] {g : Generator} {m : Movement} {kind : MoveKind}
    {t : RobotTarget} (hname : t.name.truthy = true) {os : List Offer}
    (h : g.solutionOffers m kind (some (.robotTarget t)) = .ok os) :
    ∃ solution key line, (m.solve (some (.robotTarget t)) g.robot).outcome = .ok solution ∧
      symbolKey (destinationName kind t) = .ok key ∧
      (destination kind t solution).line = .ok line ∧
      os = [.declare key (.action (destination kind t solution).action) line
        (g.problems t solution)] := by
  obtain ⟨solution, hsolution, h⟩ := Outcome.bind_eq_ok.mp h
  simp only [destinationOffers, hname, if_true] at h
  obtain ⟨line, hline, h⟩ := Outcome.bind_eq_ok.mp h
  obtain ⟨key, hkey, h⟩ := Outcome.bind_eq_ok.mp h
  rw [destination_name] at hkey
  exact ⟨solution, key, line, hsolution, hkey, hline, (Outcome.pure_eq_ok.mp h).symm⟩

/-- The parts of a joint target are offered under their names. -/
theorem offeredIn_jointPartOffers {t : JointTarget} {os : List Offer}
    (h : jointPartOffers t = .ok os) {name : Value} (hname : name ∈ t.partNames) :
    OfferedIn os name := by
  obtain ⟨xs, ys, hx, hy, rfl⟩ := Outcome.both_eq_ok.mp h
  obtain ⟨robot, hrobot, hx⟩ := Outcome.bind_eq_ok.mp hx
  obtain ⟨external, hexternal, hy⟩ := Outcome.bind_eq_ok.mp hy
  obtain ⟨hmem, htruthy⟩ := List.mem_filter.mp hname
  obtain hmem | hmem := List.mem_append.mp hmem
  · obtain ⟨p, hp, rfl⟩ := List.mem_map.mp hmem
    rw [Option.mem_toList.mp hp] at hrobot
    obtain rfl : p = robot := Except.ok.inj hrobot
    rw [robotJointsOffers, if_pos htruthy] at hx
    exact (offeredIn_offerAs hx).mono (List.subset_append_left _ _)
  · obtain ⟨p, hp, rfl⟩ := List.mem_map.mp hmem
    rw [Option.mem_toList.mp hp] at hexternal
    obtain rfl : p = external := Except.ok.inj hexternal
    rw [externalJointsOffers, if_pos htruthy] at hy
    exact (offeredIn_offerAs hy).mono (List.subset_append_right _ _)

/-- The offers of a joint target are orderly, as its named parts come first. -/
theorem orderly_jointTargetOffers (earlier : List Offer) (g : Generator) (t : JointTarget) :
    (g.jointTargetOffers t).Gives (Orderly earlier) := by
  refine orderly_both (orderly_both ?_ ?_) ?_
  · refine Outcome.Gives.bind fun p _ => ?_
    exact orderly_robotJointsOffers _ p
  · intro robot _
    refine Outcome.Gives.bind fun p _ => ?_
    exact orderly_externalJointsOffers _ p
  · -- The target itself comes after its parts, which are offered by then.
    intro parts hparts
    unfold ownJointOffers
    by_cases hname : t.name.truthy
    · rw [if_pos hname]
      refine Outcome.Gives.bind fun line hline => ?_
      refine Outcome.Gives.bind fun messages _ => ?_
      refine orderly_offerAs (isEmpty_of_named hname hline) ?_
      rintro t' ⟨⟩ name hmem
      exact (offeredIn_jointPartOffers hparts hmem).mono (List.subset_append_right _ _)
    · rw [if_neg hname]
      exact .ok .nil

/-- The joint target of a movement refers to no parts. -/
theorem jointTarget_partNames (target : Option Action) (solution : Solution Float) :
    (Movement.jointTarget target solution).partNames = [] := by
  simp [JointTarget.partNames, Movement.jointTarget, JointTarget.make, Movement.externalOf,
    ExternalJoints.ofSlots, Value.truthy]

/-- The offers of a movement's destination are orderly. -/
theorem orderly_destinationOffers (earlier : List Offer) (g : Generator) (kind : MoveKind)
    (t : RobotTarget) (solution : Solution Float) :
    (g.destinationOffers kind t solution).Gives (Orderly earlier) := by
  have hjoint := destinationName_truthy .absoluteJoint t
  unfold destinationOffers
  by_cases hname : t.name.truthy
  · rw [if_pos hname]
    rw [hname] at hjoint
    refine Outcome.Gives.bind fun line hline => ?_
    cases kind with
    | absoluteJoint =>
      -- The joint target of a solution is made of anonymous parts.
      refine orderly_offerAs (isEmpty_of_named hjoint hline) ?_
      rintro t' ⟨⟩ name hmem
      rw [jointTarget_partNames] at hmem
      cases hmem
    | linear => exact orderly_offerAs (isEmpty_of_named hname hline) (by simp [destination])
    | joint => exact orderly_offerAs (isEmpty_of_named hname hline) (by simp [destination])
  · rw [if_neg hname]
    exact .ok (.of_forall (by simp [Offer.Declares]))

/-- The offers of a movement's parts are orderly. -/
theorem orderly_partOffers (earlier : List Offer) (m : Movement) :
    (partOffers m).Gives (Orderly earlier) := by
  refine orderly_both ?_ fun os _ => orderly_workObjectOffers _ m.workObject
  refine Outcome.Gives.bind fun s _ => ?_
  exact orderly_speedOffers earlier s

/-- The offers of a joint target that is written in place are orderly. -/
theorem orderly_inlineJointOffers (earlier : List Offer) (g : Generator) (t : JointTarget) :
    (g.inlineJointOffers t).Gives (Orderly earlier) := by
  unfold inlineJointOffers
  cases t.name.truthy with
  | true => exact .ok .nil
  | false =>
    refine Outcome.Gives.bind fun messages _ => ?_
    exact Outcome.Gives.ok (.of_forall (by simp [Offer.Declares]))

/-- The offers that a movement makes from its solution are orderly. -/
theorem orderly_solutionOffers [Resolver] (earlier : List Offer) (g : Generator) (m : Movement)
    (kind : MoveKind) (target : Option Action) :
    (g.solutionOffers m kind target).Gives (Orderly earlier) := by
  refine Outcome.Gives.bind fun solution _ => ?_
  split
  · exact orderly_destinationOffers earlier g kind _ solution
  · exact .error

/-- The offers of an action are orderly, whatever comes before. -/
theorem orderly_offers [Resolver] (earlier : List Offer) (g : Generator) (a : Action) :
    (g.offers a).Gives (Orderly earlier) := by
  match a with
  | .robotJoints p => exact orderly_robotJointsOffers earlier p
  | .externalJoints p => exact orderly_externalJointsOffers earlier p
  | .jointTarget t => exact orderly_jointTargetOffers earlier g t
  | .robotTarget t => exact orderly_robotTargetOffers earlier t
  | .speed s => exact orderly_speedOffers earlier s
  | .wait _ => exact .ok .nil
  | .output _ => exact .ok .nil
  | .movement m none =>
    rw [offers]
    refine orderly_both (orderly_partOffers earlier m) fun os _ => ?_
    cases m.kind with
    | other v => exact .error
    | known kind => exact orderly_solutionOffers _ g m kind none
  | .movement m (some target) =>
    have ih (earlier : List Offer) := orderly_offers earlier g target
    by_cases htarget : ∃ t, target = .jointTarget t
    · obtain ⟨t, rfl⟩ := htarget
      rw [offers]
      exact orderly_both (orderly_partOffers earlier m) fun _ _ =>
        orderly_both (orderly_jointTargetOffers _ g t) fun _ _ => orderly_inlineJointOffers _ g t
    · rw [not_exists] at htarget
      rw [offers_movement g m htarget]
      refine orderly_both (orderly_partOffers earlier m) fun os _ => ?_
      cases m.kind with
      | other v => exact ih (earlier ++ os)
      | known kind => exact orderly_solutionOffers _ g m kind (some target)

/-- Instructions declare nothing. -/
theorem instructionOffers_declares [Resolver] (g : Generator) (a : Action) :
    (g.instructionOffers a).Gives fun os => ∀ o ∈ os, ∀ key, ¬o.Declares key := by
  cases a with
  | wait w => exact .ok (by simp [Offer.Declares])
  | output o => exact .ok (by simp [Offer.Declares])
  | movement m target =>
    refine Outcome.Gives.bind fun text _ => ?_
    split
    · refine Outcome.Gives.bind fun message _ => ?_
      exact Outcome.Gives.ok (by simp [Offer.Declares])
    · exact .ok (by simp [Offer.Declares])
  | _ => exact .ok (by simp)

/-! ### The offers of a program -/

/-- What an action declares is orderly. -/
theorem orderly_declared [Resolver] (g : Generator) (earlier : List Offer) (a : Action) :
    Orderly earlier (g.declared a) := by
  unfold declared
  by_cases h : a.passes
  · rw [if_pos h]
    exact (orderly_offers earlier g a).items .nil
  · rw [if_neg h]
    exact .nil

/-- What an action instructs is orderly. -/
theorem orderly_instructed [Resolver] (g : Generator) (earlier : List Offer) (a : Action) :
    Orderly earlier (g.instructed a) := by
  unfold instructed
  by_cases h : a.passes
  · rw [if_pos h]
    exact Outcome.Gives.items (fun os hos => .of_forall (instructionOffers_declares g a os hos))
      .nil
  · rw [if_neg h]
    exact .nil

/-- The offers of a program are orderly. -/
theorem program_orderly [Resolver] {g : Generator} {actions : List Action} {os : List Offer}
    (h : g.program actions = .ok os) : Orderly [] os := by
  obtain ⟨-, rfl⟩ := program_eq_ok.mp h
  exact (Orderly.flatMap (fun _ p => .of_forall (skipped_declares p)) _ _).append
    ((Orderly.flatMap (orderly_declared g) _ _).append
      (Orderly.flatMap (orderly_instructed g) _ _))

end Generator

end Program

end RobotProgram
