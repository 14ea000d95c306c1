import RobotProgram.Proofs.Migration
import RobotProgram.Proofs.StageFaults

/-!
# Names that are missing

Everything that is declared needs a name, and what has none is written in place or left out, so a
name that is missing should never be registered. The work object of a movement is declared without a
look at its name, and the validity of a movement does not ask for one.
`generate_anonymous_iff` says that this is the only way to an anonymous declaration: generation
fails with it exactly if the first of the valid actions that cannot be declared is a movement whose
work object has no name.
-/

namespace RobotProgram

namespace Outcome

variable {α β : Type} {e : Fault}

/-- A computation in two steps fails where one of them does. -/
theorem bind_eq_error {x : Outcome α} {f : α → Outcome β} :
    (x >>= f) = .error e ↔ x = .error e ∨ ∃ a, x = .ok a ∧ f a = .error e := by
  cases x with
  | error f => simp [bind, Except.bind]
  | ok a => simp [bind, Except.bind]

/-- Two lists are not both offered where one of them fails, the first one first. -/
theorem both_eq_error {o p : Outcome (List α)} :
    o.both p = .error e ↔ o = .error e ∨ (∃ os, o = .ok os) ∧ p = .error e := by
  cases o <;> cases p <;> simp [both, bind, Except.bind, pure, Except.pure]

/-- A list of outcomes fails as the first of them that does. -/
theorem flatten_mapM_eq_error {q : α → Outcome (List β)} {xs : List α} :
    List.flatten <$> xs.mapM q = .error e ↔ ∃ before x after, xs = before ++ x :: after ∧
      (∀ y ∈ before, ∃ os, q y = .ok os) ∧ q x = .error e := by
  induction xs with
  | nil =>
    refine iff_of_false ?_ ?_
    · rintro ⟨⟩
    · rintro ⟨before, x, after, h, -⟩
      simp at h
  | cons x xs ih =>
    rw [flatten_mapM_cons, both_eq_error, ih]
    constructor
    · rintro (hx | ⟨hx, before, y, after, rfl, hbefore, hy⟩)
      · exact ⟨[], x, xs, rfl, by simp, hx⟩
      · exact ⟨x :: before, y, after, rfl, List.forall_mem_cons.mpr ⟨hx, hbefore⟩, hy⟩
    · rintro ⟨before, y, after, h, hbefore, hy⟩
      cases before with
      | nil =>
        obtain ⟨rfl, rfl⟩ := List.cons.inj h
        exact .inl hy
      | cons z before =>
        obtain ⟨rfl, rfl⟩ := List.cons.inj h
        rw [List.forall_mem_cons] at hbefore
        exact .inr ⟨hbefore.1, before, y, after, rfl, hbefore.2, hy⟩

/-- Faults of plain kinds are not that of a declaration without a name. -/
theorem KindsIn.ne_anonymous {kinds : List FaultKind} {o : Outcome α} (h : o.KindsIn kinds)
    (hkinds : .generation ∉ kinds) : o ≠ .error .anonymousDeclaration :=
  fun ho => hkinds (h _ ho)

end Outcome

open Outcome (KindsIn)

/-! ### Parts of valid actions -/

/-- The kinds of faults of data and of solving. -/
def plainKinds : List FaultKind := .singular :: dataKinds

/-- The declaration of a speed fails only by data of the wrong shape. -/
theorem Speed.kindsIn_declaration (s : Speed) : s.declaration.KindsIn plainKinds := by
  have hnumber (v : Value) : v.number.KindsIn plainKinds := v.kindsIn_number.mono (by decide)
  unfold declaration
  split_ifs
  · exact Outcome.Faults.ok _
  · refine Outcome.Faults.bind ?_ fun text _ => Outcome.Faults.ok _
    refine Outcome.Faults.bind (Outcome.Faults.mapM fun v _ => hnumber v) fun numbers _ => ?_
    exact Outcome.Faults.ok _

/-- The work object that needs no declaration has a name. -/
theorem WorkObject.isValid_of_isDefault {w : WorkObject} (h : w.isDefault = true) :
    w.isValid = true := by
  unfold isDefault at h
  unfold isValid
  cases hname : w.name with
  | atom a =>
    rw [hname] at h
    obtain rfl := Atom.same_text.mp h
    rfl
  | list vs | map es =>
    rw [hname] at h
    cases h

/-- A valid speed has a name. -/
theorem Speed.name_of_valid {s : Speed} (h : s.isValid = .ok true) : s.name.truthy = true := by
  by_contra hname
  rw [isValid, if_neg hname] at h
  cases h

/-- A valid movement has a valid speed. -/
theorem Action.speed_of_valid {m : Movement} {target : Option Action}
    (h : (Action.movement m target).isValid = .ok true) :
    ∃ s, m.speed = some s ∧ s.isValid = .ok true := by
  change movementIsValid m target = .ok true at h
  unfold movementIsValid at h
  split at h
  · cases h
  · rename_i s hspeed
    obtain ⟨valid, -, h⟩ := Outcome.bind_eq_ok.mp h
    cases valid with
    | false => cases h
    | true => exact ⟨s, hspeed, h⟩

namespace Program

/-- A step ends well exactly if its offers can be made. -/
theorem Emits.run_eq_ok {x : Emit Unit} {o : Outcome (List Offer)} (h : Emits x o) (r : Run) :
    (x.run r).1 = .ok () ↔ ∃ os, o = .ok os := by
  have hr := h r
  cases o with
  | error f => exact iff_of_false (fun hok => nomatch hr.symm.trans hok) nofun
  | ok os => exact iff_of_true hr.1 ⟨os, rfl⟩

namespace Generator

variable {m : Movement} {target : Option Action}

/-- An action is a movement whose speed can be declared, and whose work object has no name. -/
inductive Nameless (r : Run) : Action → Prop
  | movement {m : Movement} {target : Option Action} {s : Speed} (speed : m.speed = some s)
    (declared : ((emitSpeed s).run r).1 = .ok ()) (unnamed : m.workObject.isValid = false) :
    Nameless r (.movement m target)

/-- The offers of a speed with a name fail only by data of the wrong shape. -/
theorem kindsIn_speedOffers {s : Speed} (hname : s.name.truthy = true) :
    (speedOffers s).KindsIn plainKinds := by
  unfold speedOffers
  split_ifs
  · exact .ok _
  · exact .bind s.kindsIn_declaration fun _ _ => (kindsIn_offerAs hname _ _ _).mono (by decide)

/-- An offer is anonymous exactly without a name. -/
theorem offerAs_anonymous {name : Value} {d : Declared} {line : String} {problems : List String} :
    offerAs name d line problems = .error .anonymousDeclaration ↔ name.truthy = false := by
  cases hname : name.truthy with
  | true =>
    exact iff_of_false ((kindsIn_offerAs hname d line problems).ne_anonymous (by decide)) (by simp)
  | false =>
    refine iff_of_true ?_ rfl
    unfold offerAs symbolKey
    rw [hname]
    rfl

/-- A work object is refused as anonymous exactly when it has no name. -/
theorem workObjectOffers_anonymous {w : WorkObject} :
    workObjectOffers w = .error .anonymousDeclaration ↔ w.isValid = false := by
  unfold workObjectOffers
  cases hdefault : w.isDefault with
  | true => exact iff_of_false nofun (by simp [WorkObject.isValid_of_isDefault hdefault])
  | false => exact offerAs_anonymous

/-- The parts of a movement whose speed has a name. -/
theorem partOffers_anonymous {s : Speed} (hspeed : m.speed = some s)
    (hname : s.name.truthy = true) :
    partOffers m = .error .anonymousDeclaration ↔
      (∃ os, speedOffers s = .ok os) ∧ m.workObject.isValid = false := by
  have hparts : partOffers m = .both (speedOffers s) (workObjectOffers m.workObject) := by
    rw [partOffers, hspeed]
    rfl
  rw [hparts, Outcome.both_eq_error, workObjectOffers_anonymous]
  exact or_iff_right ((kindsIn_speedOffers hname).ne_anonymous (by decide))

/-- What a valid movement offers after its parts. -/
theorem offers_of_valid (g : Generator) (h : (Action.movement m target).isValid = .ok true) :
    ∃ rest, g.offers (.movement m target) = .both (partOffers m) rest ∧
      rest.KindsIn programKinds := by
  obtain ⟨t, rfl⟩ | ⟨t, rfl⟩ := Action.target_of_valid h
  · refine ⟨_, rfl, ?_⟩
    exact faults_both (g.kindsIn_jointTargetOffers t) (g.kindsIn_inlineJointOffers t)
  · refine ⟨_, g.offers_movement m (by simp), ?_⟩
    split
    · exact kindsIn_robotTargetOffers t
    · exact g.kindsIn_solutionOffers m _ _

/-- A valid action offers a declaration without a name exactly if it is nameless. -/
theorem offers_anonymous (g : Generator) {a : Action} (h : a.isValid = .ok true) (r : Run) :
    g.offers a = .error .anonymousDeclaration ↔ Nameless r a := by
  have hplain {kinds : List FaultKind} {o : Outcome (List Offer)} (ho : o.KindsIn kinds)
      (hkinds : .generation ∉ kinds) (ha : ¬Nameless r a) :
      o = .error .anonymousDeclaration ↔ Nameless r a :=
    iff_of_false (ho.ne_anonymous hkinds) ha
  cases a with
  | robotJoints p => exact hplain (kindsIn_robotJointsOffers p) (by decide) nofun
  | externalJoints p => exact hplain (kindsIn_externalJointsOffers p) (by decide) nofun
  | jointTarget t => exact hplain (g.kindsIn_jointTargetOffers t) (by decide) nofun
  | robotTarget t => exact hplain (kindsIn_robotTargetOffers t) (by decide) nofun
  | speed s => exact hplain (kindsIn_speedOffers (Speed.name_of_valid h)) (by decide) nofun
  | wait w | output o => exact iff_of_false nofun nofun
  | movement m target =>
    obtain ⟨s, hspeed, hvalid⟩ := Action.speed_of_valid h
    obtain ⟨rest, hoffers, hrest⟩ := g.offers_of_valid h
    rw [hoffers, Outcome.both_eq_error, partOffers_anonymous hspeed (Speed.name_of_valid hvalid),
      or_iff_left (fun h => hrest.ne_anonymous (by decide) h.2), ← (emitSpeed_emits s).run_eq_ok r]
    constructor
    · rintro ⟨hdeclared, hname⟩
      exact .movement hspeed hdeclared hname
    · rintro ⟨hspeed', hdeclared, hname⟩
      obtain rfl := Option.some.inj (hspeed.symm.trans hspeed')
      exact ⟨hdeclared, hname⟩

/-! ### Programs -/

/-- The instruction of an action fails only by data of the wrong shape. -/
theorem kindsIn_instructionOffers (g : Generator) (a : Action) :
    (g.instructionOffers a).KindsIn plainKinds := by
  cases a with
  | movement m target =>
    refine .bind (KindsIn.mono (m.runKindsIn_instruction _ _ _ []) (by decide)) fun text _ => ?_
    split_ifs
    · exact .bind (.bind ((Action.kindsIn_movementText m _).mono (by decide)) fun _ _ =>
        .bind ((Value.kindsIn_integer _).mono (by decide)) fun _ _ => .ok _) fun _ _ => .ok _
    · exact .ok _
  | _ => exact .ok _

/-- The texts of a program fail only by a line ending that is none. -/
theorem kindsIn_texts (g : Generator) (b : Buffers) : (g.texts b).KindsIn plainKinds := by
  have hjoined (lines : List String) : (g.joined lines).KindsIn plainKinds :=
    .bind ((kindsIn_lineBreak _).mono (by decide)) fun _ _ => .ok _
  exact .bind (hjoined _) fun _ _ => .bind (hjoined _) fun _ _ => .ok _

/-- Generation fails by an anonymous declaration exactly if the program does. -/
theorem run_generate_anonymous (g : Generator) (actions : List Action) (r : Run) :
    ((g.generate actions).run r).1 = .error .anonymousDeclaration ↔
      g.program actions = .error .anonymousDeclaration := by
  have hrun := g.run_generate actions r
  cases hprogram : g.program actions with
  | error f =>
    rw [hprogram] at hrun
    rw [hrun]
    simp
  | ok os =>
    rw [hprogram] at hrun
    rw [hrun.1]
    exact iff_of_false ((g.kindsIn_texts _).ne_anonymous (by decide)) nofun

/-- The valid actions are offered in order, whatever their places. -/
theorem offers_selected (g : Generator) (actions : List Action) :
    (actions.zipIdx.filter (·.1.passes)).mapM (fun p => g.offers p.1) =
      (actions.filter Action.passes).mapM g.offers := by
  have hvalid : actions.filter Action.passes =
      (actions.zipIdx.filter (·.1.passes)).map Prod.fst := by
    conv_lhs => rw [← List.zipIdx_map_fst 0 actions, List.filter_map]
    rfl
  rw [hvalid, List.mapM_map]
  rfl

/-- A program fails by an anonymous declaration exactly if all actions can be selected and the first
of the valid ones that cannot be declared is anonymous. -/
theorem program_anonymous (g : Generator) (actions : List Action) :
    g.program actions = .error .anonymousDeclaration ↔
      (∀ a ∈ actions, (∃ valid, a.isValid = .ok valid) ∧
        (a.passes = false → ∃ text, a.text = .ok text)) ∧
      List.flatten <$> (actions.filter Action.passes).mapM g.offers =
        .error .anonymousDeclaration := by
  have hinstructions (valid : List (Action × Nat)) :
      List.flatten <$> valid.mapM (fun p => g.instructionOffers p.1) ≠
        .error .anonymousDeclaration :=
    KindsIn.ne_anonymous (.map (.mapM fun p _ => g.kindsIn_instructionOffers p.1) _) (by decide)
  unfold program
  rw [Outcome.bind_eq_error, or_iff_right ((kindsIn_select _).ne_anonymous (by decide))]
  simp only [select_eq_ok, Outcome.both_eq_error, hinstructions, and_false, or_false, false_or,
    reduceCtorEq, ← offers_selected]
  constructor
  · rintro ⟨-, ⟨hselect, rfl⟩, -, hoffers⟩
    exact ⟨forall_mem_zipIdx.mp hselect, hoffers⟩
  · rintro ⟨hselect, hoffers⟩
    exact ⟨_, ⟨forall_mem_zipIdx.mpr hselect, rfl⟩, ⟨_, rfl⟩, hoffers⟩

/-- Generation fails by a declaration without a name exactly if all actions can be selected, and the
first of the valid ones that cannot be declared is a movement whose work object has no name. -/
theorem generate_anonymous_iff (g : Generator) (actions : List Action) (r : Run) :
    ((g.generate actions).run r).1 = .error .anonymousDeclaration ↔
      (∀ a ∈ actions, (∃ valid, a.isValid = .ok valid) ∧
        (a.passes = false → ∃ text, a.text = .ok text)) ∧
      ∃ before a after, actions.filter Action.passes = before ++ a :: after ∧
        (∀ b ∈ before, ((g.emitDeclaration b).run r).1 = .ok ()) ∧ Nameless r a := by
  rw [run_generate_anonymous, program_anonymous, Outcome.flatten_mapM_eq_error]
  refine and_congr_right fun _ => exists_congr fun before => exists_congr fun a =>
    exists_congr fun after => and_congr_right fun hactions => and_congr ?_ ?_
  · simp only [(g.emitDeclaration_emits _).run_eq_ok r]
  · have hvalid : a ∈ actions.filter Action.passes := by simp [hactions]
    exact g.offers_anonymous (Action.passes_eq_true.mp (List.mem_filter.mp hvalid).2) r

/-- A movement to the origin of a work object. -/
def benchMoves (workObject : WorkObject) : List Action :=
  [.movement (benchMovement .linear workObject) (some (.robotTarget (benchTarget "p10")))]

/-- A work object without a name ends generation; with a name it does not. -/
theorem generate_anonymous_iff_bench :
    ((bench.generate (benchMoves ⟨.text "", .world, .world⟩)).run {}).1 =
        .error .anonymousDeclaration ∧
      ((bench.generate (benchMoves fixture)).run {}).1 ≠ .error .anonymousDeclaration := by
  constructor
  · have hpasses : ∀ a ∈ benchMoves ⟨.text "", .world, .world⟩, a.passes = true := by
      decide +kernel
    refine (generate_anonymous_iff _ _ _).mpr ⟨fun a ha => ?_, [], _, [],
      List.filter_eq_self.mpr hpasses, by simp, ?_⟩
    · exact ⟨⟨true, Action.passes_eq_true.mp (hpasses a ha)⟩, by simp [hpasses a ha]⟩
    · exact .movement rfl rfl rfl
  · refine mt (generate_anonymous_iff _ _ _).mp ?_
    rintro ⟨-, before, a, after, hactions, -, hnameless⟩
    have hmem : a ∈ (benchMoves fixture).filter Action.passes := by simp [hactions]
    obtain rfl := List.mem_singleton.mp (List.mem_of_mem_filter hmem)
    obtain ⟨-, -, hname⟩ := hnameless
    cases hname

end Generator

end Program

end RobotProgram
