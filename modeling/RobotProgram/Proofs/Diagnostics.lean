import RobotProgram.Proofs.Symbols

/-!
# What an empty list of diagnostics means

A program without diagnostics has only valid actions of known types, and every target of a movement
either fits or stands under a name that was taken before (`no_errors_iff`). The second case is the
gap: the problems of a robot target are reported with the declaration of its destination, so a
movement to a target that was declared on its own reports nothing, though it may not be reached.
-/

namespace RobotProgram.Program

namespace Buffers

/-- An offer that leads to no diagnostic. -/
def Quiet (b : Buffers) : Offer → Prop
  | .declare key _ _ problems => b.declares key = true ∨ problems = []
  | .report problems => problems = []
  | .instruct _ => True

/-- Offers of which none leads to a diagnostic, when they are made in order. -/
def QuietAll (b : Buffers) : List Offer → Prop
  | [] => True
  | o :: os => b.Quiet o ∧ (b.accept o).QuietAll os

/-- An offer adds its diagnostics unless it is quiet. -/
theorem errors_accept_eq_nil {b : Buffers} {o : Offer} :
    (b.accept o).errors = [] ↔ b.errors = [] ∧ b.Quiet o := by
  cases o with
  | declare key d line problems =>
    by_cases h : b.declares key <;> simp [accept, Quiet, h]
  | report problems => simp [accept, Quiet]
  | instruct line => by_cases h : line.isEmpty <;> simp [accept, Quiet, h]

/-- Diagnostics come from offers that are not quiet. -/
theorem errors_acceptAll_eq_nil {b : Buffers} {os : List Offer} :
    (b.acceptAll os).errors = [] ↔ b.errors = [] ∧ b.QuietAll os := by
  induction os generalizing b with
  | nil => simp [QuietAll]
  | cons o os ih => rw [acceptAll_cons, ih, errors_accept_eq_nil, QuietAll, and_assoc]

/-- Offers in a row are quiet if the later ones are after the earlier ones. -/
theorem quietAll_append {b : Buffers} {os os' : List Offer} :
    b.QuietAll (os ++ os') ↔ b.QuietAll os ∧ (b.acceptAll os).QuietAll os' := by
  induction os generalizing b with
  | nil => simp [QuietAll]
  | cons o os ih => rw [List.cons_append, QuietAll, QuietAll, ih, acceptAll_cons, and_assoc]

/-- Whether offers are quiet depends on the declarations alone. -/
theorem quietAll_congr {b b' : Buffers} (h : b.SameTable b') (os : List Offer) :
    b.QuietAll os ↔ b'.QuietAll os := by
  induction os generalizing b b' with
  | nil => exact Iff.rfl
  | cons o os ih =>
    rw [QuietAll, QuietAll, ih (h.accept o)]
    cases o <;> simp [Quiet, declares, h.1]

/-- Lists of offers are quiet when each of them is, after those before it. -/
theorem quietAll_flatMap {α : Type} {b : Buffers} {f : α → List Offer} {as : List α} :
    b.QuietAll (as.flatMap f) ↔ ∀ before a after, as = before ++ a :: after →
      (b.acceptAll (before.flatMap f)).QuietAll (f a) := by
  induction as generalizing b with
  | nil => simp [QuietAll]
  | cons a as ih =>
    rw [List.flatMap_cons, quietAll_append, ih]
    constructor
    · rintro ⟨hfirst, hrest⟩ before x after heq
      cases before with
      | nil =>
        obtain ⟨rfl, -⟩ := List.cons.inj heq
        exact hfirst
      | cons y before =>
        obtain ⟨rfl, htail⟩ := List.cons.inj heq
        rw [List.flatMap_cons, acceptAll_append]
        exact hrest before x after htail
    · intro h
      refine ⟨h [] a as rfl, fun before x after heq => ?_⟩
      have hx := h (a :: before) x after (by rw [heq, List.cons_append])
      rwa [List.flatMap_cons, acceptAll_append] at hx

/-- Offers without problems are quiet. -/
theorem quietAll_of_forall {b : Buffers} {os : List Offer} (h : ∀ o ∈ os, ∀ b, Quiet b o) :
    b.QuietAll os := by
  induction os generalizing b with
  | nil => trivial
  | cons o os ih =>
    rw [List.forall_mem_cons] at h
    exact ⟨h.1 b, ih h.2⟩

/-- A name under which nothing can be declared any more. -/
def Taken (b : Buffers) (name : Value) : Prop :=
  ∃ key, symbolKey name = .ok key ∧ b.declares key = true

end Buffers

namespace Generator

open Kinematics (Resolver Solution)

/-! ### Actions without diagnostics -/

/-- A movement to a robot target has a solution that reaches it within the limits. -/
def Reaches [Resolver] (g : Generator) (m : Movement) (t : RobotTarget) : Prop :=
  ∃ solution, (m.solve (some (.robotTarget t)) g.robot).outcome = .ok solution ∧
    solution.valid = true ∧ checkLimits g.robot t.owner solution.internal solution.external = []

/-- A joint target is within the limits, or its name is taken when it is declared, after its
parts. -/
def Fits (g : Generator) (b : Buffers) (t : JointTarget) : Prop :=
  t.limitMessages g.robot = .ok [] ∨ (b.acceptAll (jointPartOffers t).items).Taken t.name

/-- An action that leads to no diagnostic when `b` is declared before it. -/
structure Silent [Resolver] (g : Generator) (b : Buffers) (a : Action) : Prop where
  valid : a.isValid = .ok true
  known : ∀ m target, a = .movement m target → ∃ kind, m.kind = .known kind
  jointTarget : ∀ t, a = .jointTarget t → t.name.truthy = true → g.Fits b t
  jointMovement : ∀ m t, a = .movement m (some (.jointTarget t)) → g.Fits (atTarget b m) t
  /-- The target is reached, or the destination of the movement is taken. -/
  robotMovement : ∀ m kind t, a = .movement m (some (.robotTarget t)) → m.kind = .known kind →
    g.Reaches m t ∨ (atTarget b m).Taken (destinationName kind t)

/-- A declaration under a name is quiet when nothing is wrong or the name is taken. -/
theorem quietAll_offerAs {b : Buffers} {name : Value} {d : Declared} {line : String}
    {problems : List String} {os : List Offer} (h : offerAs name d line problems = .ok os) :
    b.QuietAll os ↔ problems = [] ∨ b.Taken name := by
  obtain ⟨key, hkey, h⟩ := Outcome.bind_eq_ok.mp h
  obtain rfl := Outcome.pure_eq_ok.mp h
  simp [Buffers.QuietAll, Buffers.Quiet, Buffers.Taken, hkey, or_comm]

/-- A declaration without problems is quiet. -/
theorem gives_quietAll_offerAs (b : Buffers) (name : Value) (d : Declared) (line : String) :
    (offerAs name d line []).Gives b.QuietAll :=
  fun _ h => (quietAll_offerAs h).mpr (.inl rfl)

/-- A choice between two outcomes is quiet if both are. -/
theorem gives_quietAll_ite {b : Buffers} {c : Bool} {o p : Outcome (List Offer)}
    (ho : o.Gives b.QuietAll) (hp : p.Gives b.QuietAll) :
    (if c then o else p).Gives b.QuietAll := by
  cases c with
  | false => exact hp
  | true => exact ho

/-- Two outcomes together are quiet when the second is after the first. -/
theorem gives_quietAll_both {b : Buffers} {o p : Outcome (List Offer)} (ho : o.Gives b.QuietAll)
    (hp : ∀ b : Buffers, p.Gives b.QuietAll) : (o.both p).Gives b.QuietAll := by
  intro os h
  obtain ⟨xs, ys, hx, hy, rfl⟩ := Outcome.both_eq_ok.mp h
  exact Buffers.quietAll_append.mpr ⟨ho xs hx, hp _ ys hy⟩

/-- Robot joints are declared without diagnostics. -/
theorem gives_quietAll_robotJointsOffers (b : Buffers) (p : RobotJoints) :
    (robotJointsOffers p).Gives b.QuietAll :=
  gives_quietAll_ite (gives_quietAll_offerAs b _ _ _) (.ok trivial)

/-- External joints are declared without diagnostics. -/
theorem gives_quietAll_externalJointsOffers (b : Buffers) (p : ExternalJoints) :
    (externalJointsOffers p).Gives b.QuietAll :=
  gives_quietAll_ite (gives_quietAll_offerAs b _ _ _) (.ok trivial)

/-- A speed is declared without diagnostics. -/
theorem gives_quietAll_speedOffers (b : Buffers) (s : Speed) :
    (speedOffers s).Gives b.QuietAll := by
  refine gives_quietAll_ite (.ok trivial) ?_
  refine Outcome.Gives.bind fun line _ => ?_
  exact gives_quietAll_offerAs b _ _ line

/-- A work object is declared without diagnostics. -/
theorem gives_quietAll_workObjectOffers (b : Buffers) (w : WorkObject) :
    (workObjectOffers w).Gives b.QuietAll :=
  gives_quietAll_ite (.ok trivial) (gives_quietAll_offerAs b _ _ _)

/-- A robot target is declared without diagnostics. -/
theorem gives_quietAll_robotTargetOffers (b : Buffers) (t : RobotTarget) :
    (robotTargetOffers t).Gives b.QuietAll := by
  refine gives_quietAll_ite ?_ (.ok trivial)
  refine Outcome.Gives.bind fun line _ => ?_
  exact gives_quietAll_offerAs b _ _ line

/-- The parts of a joint target are declared without diagnostics. -/
theorem gives_quietAll_jointPartOffers (b : Buffers) (t : JointTarget) :
    (jointPartOffers t).Gives b.QuietAll := by
  refine gives_quietAll_both ?_ fun b => ?_
  · refine Outcome.Gives.bind fun p _ => ?_
    exact gives_quietAll_robotJointsOffers b p
  · refine Outcome.Gives.bind fun p _ => ?_
    exact gives_quietAll_externalJointsOffers b p

/-- The parts of a movement are declared without diagnostics. -/
theorem gives_quietAll_partOffers (b : Buffers) (m : Movement) :
    (partOffers m).Gives b.QuietAll := by
  refine gives_quietAll_both ?_ fun b => gives_quietAll_workObjectOffers b m.workObject
  refine Outcome.Gives.bind fun s _ => ?_
  exact gives_quietAll_speedOffers b s

/-- A named joint target is quiet when it fits; one without a name declares nothing. -/
theorem quietAll_jointTargetOffers {g : Generator} {b : Buffers} {t : JointTarget}
    {os : List Offer} (h : g.jointTargetOffers t = .ok os) :
    b.QuietAll os ↔ (t.name.truthy = true → g.Fits b t) := by
  obtain ⟨ps, qs, hps, hqs, rfl⟩ := Outcome.both_eq_ok.mp h
  rw [Buffers.quietAll_append, and_iff_right (gives_quietAll_jointPartOffers b t ps hps)]
  unfold ownJointOffers at hqs
  by_cases hname : t.name.truthy
  · rw [if_pos hname] at hqs
    obtain ⟨line, -, hqs⟩ := Outcome.bind_eq_ok.mp hqs
    obtain ⟨messages, hmessages, hqs⟩ := Outcome.bind_eq_ok.mp hqs
    rw [quietAll_offerAs hqs]
    simp [Fits, hps, hmessages, hname, Outcome.items]
  · rw [if_neg hname] at hqs
    obtain rfl := Except.ok.inj hqs
    simp [hname, Buffers.QuietAll]

/-- Under a name that does not count nothing is taken. -/
theorem not_taken {b : Buffers} {name : Value} (h : name.truthy = false) : ¬b.Taken name := by
  rintro ⟨key, hkey, -⟩
  rw [(symbolKey_eq_ok.mp hkey).1] at h
  cases h

/-- A joint target that is written in place is quiet when it fits. -/
theorem quietAll_inlineJointOffers {g : Generator} {b : Buffers} (c : Buffers) {t : JointTarget}
    {os : List Offer} (h : g.inlineJointOffers t = .ok os) :
    b.QuietAll os ↔ (t.name.truthy = false → g.Fits c t) := by
  unfold inlineJointOffers at h
  cases hname : t.name.truthy with
  | true =>
    rw [hname] at h
    obtain rfl := Except.ok.inj h
    simp [Buffers.QuietAll]
  | false =>
    rw [hname] at h
    obtain ⟨messages, hmessages, h⟩ := Outcome.bind_eq_ok.mp h
    obtain rfl := Outcome.pure_eq_ok.mp h
    simp [Buffers.QuietAll, Buffers.Quiet, Fits, hmessages, not_taken hname]

/-- A movement to a joint target is quiet when the target fits. -/
theorem quietAll_jointMovement [Resolver] {g : Generator} {b : Buffers} {m : Movement}
    {t : JointTarget} {os : List Offer}
    (h : g.offers (.movement m (some (.jointTarget t))) = .ok os) :
    b.QuietAll os ↔ g.Fits (atTarget b m) t := by
  rw [offers] at h
  obtain ⟨ps, qs, hps, hqs, rfl⟩ := Outcome.both_eq_ok.mp h
  obtain ⟨js, is, hjs, his, rfl⟩ := Outcome.both_eq_ok.mp hqs
  have hparts := gives_quietAll_partOffers b m ps hps
  have htarget : b.acceptAll ps = atTarget b m := by rw [atTarget, hps]; rfl
  rw [Buffers.quietAll_append, Buffers.quietAll_append, and_iff_right hparts, htarget,
    quietAll_jointTargetOffers hjs, quietAll_inlineJointOffers (atTarget b m) his]
  cases t.name.truthy <;> simp

/-- A solution that does not reach its target has a diagnostic. -/
theorem solve_reports [Resolver] {m : Movement} {t : RobotTarget} {robot : Robot Float}
    {solution : Solution Float}
    (h : (m.solve (some (.robotTarget t)) robot).outcome = .ok solution)
    (hvalid : solution.valid = false) : solution.errors ≠ [] := by
  rw [solve_outcome] at h
  obtain ⟨resolve, hresolver, h⟩ := Outcome.bind_eq_ok.mp h
  cases hframe : m.globalFrame with
  | none => simp [hframe] at h
  | some frame =>
    rw [hframe] at h
    exact Resolver.reports hresolver h hvalid

/-- A movement reaches its target when its solution has no problems. -/
theorem reaches_iff [Resolver] {g : Generator} {m : Movement} {t : RobotTarget}
    {solution : Solution Float}
    (h : (m.solve (some (.robotTarget t)) g.robot).outcome = .ok solution) :
    g.Reaches m t ↔ g.problems t solution = [] := by
  unfold problems
  cases hvalid : solution.valid with
  | true => simp [Reaches, h, hvalid]
  | false => simp [Reaches, h, hvalid, solve_reports h hvalid]

/-- A movement to a robot target is quiet when it reaches the target or its destination is
taken. -/
theorem quietAll_robotMovement [Resolver] {g : Generator} {b : Buffers} {m : Movement}
    {kind : MoveKind} (hkind : m.kind = .known kind) {t : RobotTarget} {os : List Offer}
    (h : g.offers (.movement m (some (.robotTarget t))) = .ok os) :
    b.QuietAll os ↔ g.Reaches m t ∨ (atTarget b m).Taken (destinationName kind t) := by
  rw [offers_robotMovement g hkind] at h
  obtain ⟨ps, qs, hps, hqs, rfl⟩ := Outcome.both_eq_ok.mp h
  obtain ⟨solution, hsolution, hqs⟩ := Outcome.bind_eq_ok.mp hqs
  have hparts := gives_quietAll_partOffers b m ps hps
  have htarget : b.acceptAll ps = atTarget b m := by rw [atTarget, hps]; rfl
  rw [Buffers.quietAll_append, and_iff_right hparts, htarget, reaches_iff hsolution]
  simp only [destinationOffers] at hqs
  cases hname : t.name.truthy with
  | true =>
    -- The problems come with the declaration of the destination.
    simp only [hname, if_true] at hqs
    obtain ⟨line, -, hqs⟩ := Outcome.bind_eq_ok.mp hqs
    rw [quietAll_offerAs hqs, destination_name]
  | false =>
    -- The problems are reported in any case, and an empty name is never taken.
    simp only [hname, Bool.false_eq_true, if_false] at hqs
    obtain rfl := Except.ok.inj hqs
    have hfree : ¬(atTarget b m).Taken (destinationName kind t) :=
      not_taken (by rw [destinationName_truthy, hname])
    simp [Buffers.QuietAll, Buffers.Quiet, hfree]

/-! ### Instructions without diagnostics -/

/-- Whatever a logged computation returns has a property. -/
def Returns {α : Type} (P : α → Prop) (x : Logged α) : Prop :=
  ∀ events a, (x.run events).1 = .ok a → P a

/-- Two computations in a row return what the second one returns. -/
theorem Returns.bind {α β : Type} {P : β → Prop} {x : Logged α} {f : α → Logged β}
    (h : ∀ a, Returns P (f a)) : Returns P (x >>= f) := by
  intro events b hb
  rw [Outcome.run_bind] at hb
  generalize x.run events = q at hb
  obtain ⟨outcome, events'⟩ := q
  cases outcome with
  | error f => cases hb
  | ok a => exact h a events' b hb

/-- A value is returned. -/
theorem Returns.pure {α : Type} {P : α → Prop} {a : α} (h : P a) :
    Returns P (Pure.pure a : Logged α) := by
  rintro events _ ⟨⟩
  exact h

/-- The instruction of a movement of a known type is not empty. -/
theorem instruction_returns [Resolver] {m : Movement} {kind : MoveKind}
    (hkind : m.kind = .known kind) (target : Option Action) (robot : Robot Float)
    (ambient : Value) :
    Returns (fun text => text.isEmpty = false) (m.instruction target robot ambient) := by
  unfold Movement.instruction
  rw [hkind]
  refine Returns.bind fun reference => ?_
  refine Returns.bind fun speed => ?_
  refine Returns.bind fun zone => ?_
  cases m.output with
  | none => exact .pure (by simp)
  | some output =>
    simp only
    split_ifs
    · exact .pure (by simp)
    · exact .pure (by simp)
    · exact .pure (by simp)

/-- The instructions of an action are quiet when it is no movement of an unknown type. -/
theorem quietAll_instructionOffers [Resolver] {g : Generator} {b : Buffers} {a : Action}
    {os : List Offer} (h : g.instructionOffers a = .ok os) :
    b.QuietAll os ↔ ∀ m target, a = .movement m target → ∃ kind, m.kind = .known kind := by
  cases a with
  | wait w =>
    obtain rfl := Except.ok.inj h
    simp [Buffers.QuietAll, Buffers.Quiet]
  | output o =>
    obtain rfl := Except.ok.inj h
    simp [Buffers.QuietAll, Buffers.Quiet]
  | movement m target =>
    obtain ⟨text, htext, h⟩ := Outcome.bind_eq_ok.mp h
    cases hkind : m.kind with
    | other v =>
      -- The text is empty, and the diagnostic of the type is reported.
      have hempty : text = "" := by
        simp only [Movement.instruction, hkind] at htext
        exact (Except.ok.inj htext).symm
      subst hempty
      obtain ⟨message, -, h⟩ := Outcome.bind_eq_ok.mp h
      obtain rfl := Outcome.pure_eq_ok.mp h
      simp [Buffers.QuietAll, Buffers.Quiet, hkind]
    | known kind =>
      have hword := instruction_returns hkind target g.robot g.toolName [] text htext
      rw [hword] at h
      obtain rfl := Outcome.pure_eq_ok.mp h
      have hquiet : b.QuietAll ((Text.lines text).map .instruct) :=
        Buffers.quietAll_of_forall (by simp [Buffers.Quiet])
      simp [hquiet, hkind]
  | _ =>
    obtain rfl := Except.ok.inj h
    simp [Buffers.QuietAll]

/-- A valid action that is neither a joint target nor a movement is silent. -/
theorem silent_of_plain [Resolver] {g : Generator} {b : Buffers} {a : Action}
    (hvalid : a.isValid = .ok true) (htarget : ∀ t, a ≠ .jointTarget t)
    (hmovement : ∀ m target, a ≠ .movement m target) : g.Silent b a where
  valid := hvalid
  known m target ha := (hmovement m target ha).elim
  jointTarget t ha := (htarget t ha).elim
  jointMovement m _ ha := (hmovement m _ ha).elim
  robotMovement m _ _ ha := (hmovement m _ ha).elim

/-- The declarations of a valid action that is no movement of an unknown type are quiet when its
targets fit, are reached or are taken. -/
theorem quietAll_offers [Resolver] {g : Generator} {b : Buffers} {a : Action} {os : List Offer}
    (hvalid : a.isValid = .ok true) (h : g.offers a = .ok os)
    (hknown : ∀ m target, a = .movement m target → ∃ kind, m.kind = .known kind) :
    b.QuietAll os ↔ g.Silent b a := by
  cases a with
  | robotJoints p =>
    exact iff_of_true (gives_quietAll_robotJointsOffers b p os h)
      (silent_of_plain hvalid (by simp) (by simp))
  | externalJoints p =>
    exact iff_of_true (gives_quietAll_externalJointsOffers b p os h)
      (silent_of_plain hvalid (by simp) (by simp))
  | robotTarget t =>
    exact iff_of_true (gives_quietAll_robotTargetOffers b t os h)
      (silent_of_plain hvalid (by simp) (by simp))
  | speed s =>
    exact iff_of_true (gives_quietAll_speedOffers b s os h)
      (silent_of_plain hvalid (by simp) (by simp))
  | wait w =>
    obtain rfl := Except.ok.inj h
    exact iff_of_true trivial (silent_of_plain hvalid (by simp) (by simp))
  | output o =>
    obtain rfl := Except.ok.inj h
    exact iff_of_true trivial (silent_of_plain hvalid (by simp) (by simp))
  | jointTarget t =>
    rw [quietAll_jointTargetOffers h]
    exact ⟨fun hfits => ⟨hvalid, hknown, by rintro _ ⟨⟩; exact hfits, by simp, by simp⟩,
      fun hsilent => hsilent.jointTarget t rfl⟩
  | movement m target =>
    obtain ⟨kind, hkind⟩ := hknown m target rfl
    obtain ⟨t, rfl⟩ | ⟨t, rfl⟩ := Action.target_of_valid hvalid
    · -- An unnamed joint target reports its limits in any case, a named one with its declaration.
      rw [quietAll_jointMovement h]
      exact ⟨fun hfits => ⟨hvalid, hknown, by simp, by rintro _ _ ⟨⟩; exact hfits, by simp⟩,
        fun hsilent => hsilent.jointMovement m t rfl⟩
    · rw [quietAll_robotMovement hkind h]
      refine ⟨fun hreaches => ⟨hvalid, hknown, by simp, by simp, ?_⟩,
        fun hsilent => hsilent.robotMovement m kind t rfl hkind⟩
      rintro _ kind' _ ⟨⟩ hkind'
      rw [hkind] at hkind'
      cases hkind'
      exact hreaches

/-! ### Programs without diagnostics -/

/-- A skipped action leads to a diagnostic. -/
theorem quietAll_skipped {b : Buffers} {p : Action × Nat}
    (htext : p.1.passes = false → ∃ text, p.1.text = .ok text) :
    b.QuietAll (skipped p) ↔ p.1.passes = true := by
  unfold skipped
  cases hpasses : p.1.passes with
  | true => simp [Buffers.QuietAll]
  | false =>
    obtain ⟨text, htext⟩ := htext hpasses
    simp [skipMessage, htext, Outcome.items, Buffers.QuietAll, Buffers.Quiet, bind, Except.bind,
      pure, Except.pure]

/-- The diagnostics of skipped actions are empty when no action is skipped. -/
theorem quietAll_flatMap_skipped {b : Buffers} {actions : List Action}
    (htext : ∀ a ∈ actions, a.passes = false → ∃ text, a.text = .ok text) :
    b.QuietAll (actions.zipIdx.flatMap skipped) ↔ ∀ a ∈ actions, a.passes = true := by
  rw [Buffers.quietAll_flatMap]
  have hmem {p : Action × Nat} (hp : p ∈ actions.zipIdx) : p.1 ∈ actions := by
    rw [← List.zipIdx_map_fst 0 actions]
    exact List.mem_map_of_mem hp
  constructor
  · intro h a ha
    rw [← List.zipIdx_map_fst 0 actions] at ha
    obtain ⟨p, hp, rfl⟩ := List.mem_map.mp ha
    obtain ⟨before, after, heq⟩ := List.append_of_mem hp
    exact (quietAll_skipped (htext p.1 (hmem hp))).mp (h before p after heq)
  · intro h before p after heq
    have hp : p ∈ actions.zipIdx := by simp [heq]
    exact (quietAll_skipped (htext p.1 (hmem hp))).mpr (h p.1 (hmem hp))

/-- The declarations and the instructions of a valid action that can be handled are quiet when the
action is silent. -/
theorem silent_iff [Resolver] {g : Generator} {b : Buffers} (c : Buffers) {a : Action}
    (ha : g.Emittable a) (hpasses : a.passes = true) :
    g.Silent b a ↔ b.QuietAll (g.declared a) ∧ c.QuietAll (g.instructed a) := by
  obtain ⟨os, hos⟩ := ha.declarations hpasses
  obtain ⟨is, his⟩ := ha.instructions hpasses
  rw [declared, instructed, if_pos hpasses, if_pos hpasses, hos, his, Outcome.items, Outcome.items,
    quietAll_instructionOffers his]
  have hvalid := Action.passes_eq_true.mp hpasses
  constructor
  · intro hsilent
    exact ⟨(quietAll_offers hvalid hos hsilent.known).mpr hsilent, hsilent.known⟩
  · rintro ⟨hquiet, hknown⟩
    exact (quietAll_offers hvalid hos hknown).mp hquiet

/-- A returned program has no diagnostics exactly when each of its actions is silent after those
before it. In particular a movement to a robot target reaches it, or its destination was declared by
something else before. -/
theorem no_errors_iff [Resolver] {g : Generator} {actions : List Action} {r₀ r : Run}
    {texts : String × String} (h : (g.generate actions).run r₀ = (.ok texts, r)) :
    r.buffers.errors = [] ↔ ∀ before a after, actions = before ++ a :: after →
      g.Silent (g.declaredBy before) a := by
  obtain ⟨os, hprogram, hbuffers⟩ := generate_returns h
  obtain ⟨hemittable, rfl⟩ := program_eq_ok.mp hprogram
  rw [hbuffers, Buffers.errors_acceptAll_eq_nil, and_iff_right rfl, Buffers.quietAll_append,
    Buffers.quietAll_append, Buffers.quietAll_congr (sameTable_skipped actions),
    quietAll_flatMap_skipped fun a ha => (hemittable a ha).text, Buffers.quietAll_flatMap,
    Buffers.quietAll_flatMap]
  -- No action is skipped, and the declarations and the instructions are quiet action by action.
  constructor
  · rintro ⟨hpasses, hdeclared, hinstructed⟩ before a after heq
    have ha : a ∈ actions := by simp [heq]
    exact (silent_iff _ (hemittable a ha) (hpasses a ha)).mpr
      ⟨hdeclared before a after heq, hinstructed before a after heq⟩
  · intro hsilent
    have hpasses : ∀ a ∈ actions, a.passes = true := by
      intro a ha
      obtain ⟨before, after, heq⟩ := List.append_of_mem ha
      exact Action.passes_eq_true.mpr (hsilent before a after heq).valid
    refine ⟨hpasses, fun before a after heq => ?_, fun before a after heq => ?_⟩
    · have ha : a ∈ actions := by simp [heq]
      exact ((silent_iff {} (hemittable a ha) (hpasses a ha)).mp
        (hsilent before a after heq)).1
    · have ha : a ∈ actions := by simp [heq]
      exact ((silent_iff _ (hemittable a ha) (hpasses a ha)).mp (hsilent before a after heq)).2

/-- A resolver that reaches nothing. -/
abbrev reachesNothing : Resolver where
  resolver _ := .ok fun _ slots owner =>
    .ok ⟨Vector.replicate 6 0.0, slots, false, [owner ++ ": The target is unreachable."], 0⟩
  reports := by
    rintro robot resolve target slots owner solution ⟨⟩ ⟨⟩ -
    simp

/-- A robot target on its own, then a movement to it. -/
def strandedActions : List Action :=
  [.robotTarget (benchTarget "far"),
    .movement (benchMovement .linear .default) (some (.robotTarget (benchTarget "far")))]

/-- The movement is silent without reaching its target, because the name of the target is taken. -/
theorem no_errors_iff_stranded :
    letI := reachesNothing
    ∃ texts r, (bench.generate strandedActions).run {} = (.ok texts, r) ∧ r.buffers.errors = [] ∧
      (∀ before a after, strandedActions = before ++ a :: after →
        bench.Silent (bench.declaredBy before) a) ∧
      ¬bench.Reaches (benchMovement .linear .default) (benchTarget "far") := by
  let := reachesNothing
  obtain ⟨texts, h⟩ :=
    Outcome.run_of_isOk (x := bench.generate strandedActions) (s := {}) (by decide +kernel)
  have herrors : ((bench.generate strandedActions).run {}).2.buffers.errors = [] := by
    decide +kernel
  refine ⟨texts, _, h, herrors, (no_errors_iff h).mp herrors, ?_⟩
  rintro ⟨solution, hsolution, hvalid, -⟩
  rw [solve_outcome] at hsolution
  cases hsolution
  cases hvalid

end Generator

end RobotProgram.Program
