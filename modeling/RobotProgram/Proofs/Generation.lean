import RobotProgram.Proofs.Emission

/-!
# What a program is made of

A run of generation skips the actions that are not valid with a diagnostic each, then makes the
offers of the declarations of the others, then those of their instructions. `program` collects
these offers, and `generate_returns` shows that generation returns exactly when they can be made and
the lines can be joined, and that it leaves the buffers which accept them, whatever stood there
before. `program_eq_ok` gives the offers action by action, so that a fact about a program is a fact
about lists of offers.
-/

namespace RobotProgram

/-- The items of an outcome, none when it fails. -/
def Outcome.items {α : Type} : Outcome (List α) → List α
  | .ok as => as
  | .error _ => []

/-- Whatever an outcome gives has a property. -/
def Outcome.Gives {α : Type} (P : α → Prop) (o : Outcome α) : Prop := ∀ a, o = .ok a → P a

/-- Two computations in a row give what the second does. -/
theorem Outcome.Gives.bind {α β : Type} {P : β → Prop} {x : Outcome α} {f : α → Outcome β}
    (h : ∀ a, x = .ok a → (f a).Gives P) : Gives P (x >>= f) := by
  intro b hb
  obtain ⟨a, ha, hfa⟩ := bind_eq_ok.mp hb
  exact h a ha b hfa

/-- A value with a property is given. -/
theorem Outcome.Gives.ok {α : Type} {P : α → Prop} {a : α} (h : P a) : Gives P (.ok a) := by
  rintro _ ⟨⟩
  exact h

/-- A fault gives nothing. -/
theorem Outcome.Gives.error {α : Type} {P : α → Prop} {f : Fault} : Gives P (.error f) := by
  rintro _ ⟨⟩

/-- The items of an outcome have a property if what it gives has it, and nothing has it too. -/
theorem Outcome.Gives.items {α : Type} {P : List α → Prop} {o : Outcome (List α)} (h : o.Gives P)
    (hnil : P []) : P o.items := by
  cases o with
  | error f => exact hnil
  | ok as => exact h as rfl

/-- A list of outcomes gives items when each of them does. -/
theorem Outcome.flatten_mapM_eq_ok {α β : Type} {q : α → Outcome (List β)} {xs : List α}
    {bs : List β} :
    List.flatten <$> xs.mapM q = .ok bs ↔
      (∀ x ∈ xs, ∃ os, q x = .ok os) ∧ bs = xs.flatMap fun x => (q x).items := by
  induction xs generalizing bs with
  | nil =>
    rw [map_eq_ok]
    simp only [List.mapM_nil, pure_eq_ok]
    simp [eq_comm]
  | cons x xs ih =>
    rw [flatten_mapM_cons, both_eq_ok]
    simp only [ih, List.forall_mem_cons, List.flatMap_cons]
    constructor
    · rintro ⟨as, cs, hx, ⟨hxs, rfl⟩, rfl⟩
      exact ⟨⟨⟨as, hx⟩, hxs⟩, by rw [hx]; rfl⟩
    · rintro ⟨⟨⟨as, hx⟩, hxs⟩, rfl⟩
      exact ⟨as, _, hx, ⟨hxs, rfl⟩, by rw [hx]; rfl⟩

/-- Whether an action is valid; one for which that cannot be told is not. -/
def Action.passes (a : Action) : Bool :=
  match a.isValid with
  | .ok valid => valid
  | .error _ => false

/-- An action passes if it is found valid, without a fault. -/
theorem Action.passes_eq_true {a : Action} : a.passes = true ↔ a.isValid = .ok true := by
  unfold passes
  cases a.isValid with
  | error f => simp
  | ok valid => simp

/-- A valid movement goes to a joint target or a robot target. -/
theorem Action.target_of_valid {m : Movement} {target : Option Action}
    (h : (Action.movement m target).isValid = .ok true) :
    (∃ t, target = some (.jointTarget t)) ∨ ∃ t, target = some (.robotTarget t) := by
  unfold isValid movementIsValid at h
  cases hspeed : m.speed with
  | none => simp [hspeed, pure, Except.pure] at h
  | some s =>
    simp only [hspeed] at h
    obtain ⟨valid, hvalid, h⟩ := Outcome.bind_eq_ok.mp h
    cases valid with
    | false => simp [pure, Except.pure] at h
    | true =>
      -- Only the two kinds of targets are ever valid as targets.
      unfold targetIsValid at hvalid
      split at hvalid
      · exact .inl ⟨_, rfl⟩
      · exact .inr ⟨_, rfl⟩
      · simp at hvalid

namespace Program.Generator

open Kinematics (Resolver)

/-- The valid actions with their places, and the offers of the diagnostics of the others. -/
def select : List (Action × Nat) → Outcome (List (Action × Nat) × List Offer)
  | [] => .ok ([], [])
  | (a, index) :: rest => do
    if ← a.isValid then
      let (valid, skipped) ← select rest
      return ((a, index) :: valid, skipped)
    else
      let message ← skipMessage index a
      let (valid, skipped) ← select rest
      return (valid, .report [message] :: skipped)

/-- The offers that the program of some actions consists of. -/
def program [Resolver] (g : Generator) (actions : List Action) : Outcome (List Offer) := do
  let (valid, skipped) ← select actions.zipIdx
  .both (.ok skipped)
    (.both (List.flatten <$> valid.mapM fun p => g.offers p.1)
      (List.flatten <$> valid.mapM fun p => g.instructionOffers p.1))

/-! ### A run makes these offers -/

/-- A step that follows the selection of the valid actions gets them, after the others are
reported. -/
theorem selectValid_emits {k : List (Action × Nat) → Emit Unit}
    {q : List (Action × Nat) → Outcome (List Offer)} (hk : ∀ valid, Emits (k valid) (q valid))
    (actions : List (Action × Nat)) :
    Emits (do k (← selectValid actions)) (do
      let selected ← select actions
      .both (.ok selected.2) (q selected.1)) := by
  induction actions generalizing k q with
  | nil =>
    refine Emits.of_eq ?_ (Emits.skip.seq (hk []))
    rfl
  | cons p actions ih =>
    -- What follows the first action is itself a step that follows the selection of the others.
    obtain ⟨a, index⟩ := p
    simp only [selectValid, select, bind_assoc]
    refine Emits.lift fun valid _ => ?_
    cases valid with
    | true =>
      simp only [if_true, bind_assoc, pure_bind]
      exact ih fun valid => hk ((a, index) :: valid)
    | false =>
      simp only [Bool.false_eq_true, if_false, bind_assoc, pure_bind]
      refine Emits.lift fun message _ => ?_
      refine Emits.of_eq ?_ ((Emits.addDiagnostics [message]).seq (ih hk))
      simp only [Outcome.both, bind_assoc, pure_bind]
      cases select actions with
      | error f => rfl
      | ok selected => cases q selected.1 <;> rfl

/-- A step for each action makes the offers of the steps, one after the other. -/
theorem forEach_emits {step : Action → Emit Unit} {q : Action → Outcome (List Offer)}
    (h : ∀ a, Emits (step a) (q a)) (actions : List (Action × Nat)) :
    Emits (forEach step actions) (List.flatten <$> actions.mapM fun p => q p.1) := by
  refine Emits.forM (fun p => ?_) actions
  obtain ⟨a, index⟩ := p
  exact (h a).within _

/-- Filling the buffers empties them and makes the offers of the program. -/
theorem run_fill [Resolver] (g : Generator) (actions : List Action) (r : Run) :
    match g.program actions with
    | .ok os =>
      ((g.fill actions).run r).1 = .ok () ∧
        ((g.fill actions).run r).2.buffers = Buffers.acceptAll {} os
    | .error f => ((g.fill actions).run r).1 = .error f := by
  -- The buffers are read only to log them.
  have hlog : Emits (do Emit.log (finished (← get).buffers)) (.ok []) :=
    Emits.of_run fun r => ⟨_, rfl⟩
  have hsteps (valid : List (Action × Nat)) : Emits
      (Emit.within [("module", g.settings.moduleName)] do
        forEach g.emitDeclaration valid
        forEach g.emitInstruction valid
        Emit.log (finished (← get).buffers))
      (.both (List.flatten <$> valid.mapM fun p => g.offers p.1)
        (List.flatten <$> valid.mapM fun p => g.instructionOffers p.1)) := by
    refine Emits.within _ (Emits.of_eq ?_ ((forEach_emits (emitDeclaration_emits g) valid).seq
      ((forEach_emits (emitInstruction_emits g) valid).seq hlog)))
    rw [Outcome.both_nil]
  exact selectValid_emits hsteps actions.zipIdx { r with buffers := {} }

/-- The declarations and the instructions of buffers, each joined. -/
def texts (g : Generator) (b : Buffers) : Outcome (String × String) := do
  return (← g.joined b.declarations, ← g.joined b.instructions)

/-- Generation makes the offers of the program on empty buffers and joins their lines. -/
theorem run_generate [Resolver] (g : Generator) (actions : List Action) (r : Run) :
    match g.program actions with
    | .ok os =>
      ((g.generate actions).run r).1 = g.texts (Buffers.acceptAll {} os) ∧
        ((g.generate actions).run r).2.buffers = Buffers.acceptAll {} os
    | .error f => ((g.generate actions).run r).1 = .error f := by
  have hfill := g.run_fill actions r
  unfold generate
  rw [Outcome.run_bind]
  generalize (g.fill actions).run r = q at hfill ⊢
  obtain ⟨outcome, r'⟩ := q
  cases hprogram : g.program actions with
  | error f =>
    rw [hprogram] at hfill
    obtain rfl : outcome = .error f := hfill
    rfl
  | ok os =>
    rw [hprogram] at hfill
    obtain ⟨rfl, hbuffers⟩ : outcome = .ok () ∧ r'.buffers = Buffers.acceptAll {} os := hfill
    -- Joining the lines may fail, but leaves the buffers.
    change ((do
      return (← g.joined r'.buffers.declarations, ← g.joined r'.buffers.instructions) :
        Emit _).run r').1 = _ ∧ ((do
      return (← g.joined r'.buffers.declarations, ← g.joined r'.buffers.instructions) :
        Emit _).run r').2.buffers = _
    rw [hbuffers]
    simp only [texts, Outcome.run_bind, Emit.run_lift]
    cases g.joined (Buffers.acceptAll {} os).declarations with
    | error f => exact ⟨rfl, hbuffers⟩
    | ok declarations =>
      cases g.joined (Buffers.acceptAll {} os).instructions with
      | error f => exact ⟨rfl, hbuffers⟩
      | ok instructions => exact ⟨rfl, hbuffers⟩

/-- When a program is returned, its offers could be made, and the buffers accept them and hold
nothing of what stood there before. -/
theorem generate_returns [Resolver] {g : Generator} {actions : List Action} {r₀ r : Run}
    {texts : String × String} (h : (g.generate actions).run r₀ = (.ok texts, r)) :
    ∃ os, g.program actions = .ok os ∧ r.buffers = Buffers.acceptAll {} os := by
  have hrun := g.run_generate actions r₀
  rw [h] at hrun
  cases hprogram : g.program actions with
  | error f =>
    rw [hprogram] at hrun
    cases hrun
  | ok os =>
    rw [hprogram] at hrun
    exact ⟨os, rfl, hrun.2⟩

/-! ### The offers, action by action -/

/-- The offers of the declarations of an action, none if it is skipped. -/
def declared [Resolver] (g : Generator) (a : Action) : List Offer :=
  if a.passes then (g.offers a).items else []

/-- The offers of the instructions of an action, none if it is skipped. -/
def instructed [Resolver] (g : Generator) (a : Action) : List Offer :=
  if a.passes then (g.instructionOffers a).items else []

/-- The offer of the diagnostic of an action that is skipped. -/
def skipped (p : Action × Nat) : List Offer :=
  if p.1.passes then [] else Outcome.items do return [.report [← skipMessage p.2 p.1]]

/-- An action that can be handled: its validity is known, it has a text if it is to be skipped, and
else declarations and instructions. -/
structure Emittable [Resolver] (g : Generator) (a : Action) : Prop where
  decided : ∃ valid, a.isValid = .ok valid
  text : a.passes = false → ∃ text, a.text = .ok text
  declarations : a.passes = true → ∃ os, g.offers a = .ok os
  instructions : a.passes = true → ∃ os, g.instructionOffers a = .ok os

/-- The selection gives the valid actions and a diagnostic for each of the others. -/
theorem select_eq_ok {ps : List (Action × Nat)} {selected : List (Action × Nat) × List Offer} :
    select ps = .ok selected ↔
      (∀ p ∈ ps, (∃ valid, p.1.isValid = .ok valid) ∧
        (p.1.passes = false → ∃ text, p.1.text = .ok text)) ∧
      selected = (ps.filter (·.1.passes), ps.flatMap skipped) := by
  induction ps generalizing selected with
  | nil =>
    constructor
    · rintro ⟨⟩
      exact ⟨by simp, rfl⟩
    · rintro ⟨-, rfl⟩
      rfl
  | cons p ps ih =>
    obtain ⟨a, index⟩ := p
    unfold select
    rw [Outcome.bind_eq_ok, List.forall_mem_cons]
    constructor
    · -- The steps that led to the selection, for a valid action and for one that is skipped.
      rintro ⟨valid, hvalid, h⟩
      cases valid with
      | true =>
        have hpasses := Action.passes_eq_true.mpr hvalid
        obtain ⟨rest, hrest, h⟩ := Outcome.bind_eq_ok.mp h
        obtain rfl := Outcome.pure_eq_ok.mp h
        obtain ⟨hps, rfl⟩ := ih.mp hrest
        refine ⟨⟨⟨⟨true, hvalid⟩, by simp [hpasses]⟩, hps⟩, ?_⟩
        simp [skipped, hpasses]
      | false =>
        have hpasses : a.passes = false := by simp [Action.passes, hvalid]
        obtain ⟨message, hmessage, h⟩ := Outcome.bind_eq_ok.mp h
        obtain ⟨rest, hrest, h⟩ := Outcome.bind_eq_ok.mp h
        obtain rfl := Outcome.pure_eq_ok.mp h
        obtain ⟨hps, rfl⟩ := ih.mp hrest
        obtain ⟨text, htext, -⟩ := Outcome.bind_eq_ok.mp hmessage
        refine ⟨⟨⟨⟨false, hvalid⟩, fun _ => ⟨text, htext⟩⟩, hps⟩, ?_⟩
        simp [skipped, hpasses, hmessage, Outcome.items, bind, Except.bind, pure, Except.pure]
    · rintro ⟨⟨⟨⟨valid, hvalid⟩, htext⟩, hps⟩, rfl⟩
      refine ⟨valid, hvalid, ?_⟩
      have hrest := ih.mpr ⟨hps, rfl⟩
      cases valid with
      | true =>
        have hpasses := Action.passes_eq_true.mpr hvalid
        simp [hrest, hpasses, skipped, bind, Except.bind, pure, Except.pure]
      | false =>
        have hpasses : a.passes = false := by simp [Action.passes, hvalid]
        obtain ⟨text, htext⟩ := htext hpasses
        simp [hrest, hpasses, htext, skipped, skipMessage, Outcome.items, bind, Except.bind, pure,
          Except.pure]

/-- The items of the valid actions are those of all actions, where the others give none. -/
theorem flatMap_filter_passes (q : Action → Outcome (List Offer)) (ps : List (Action × Nat)) :
    (ps.filter (·.1.passes)).flatMap (fun p => (q p.1).items) =
      (ps.map Prod.fst).flatMap fun a => if a.passes then (q a).items else [] := by
  induction ps with
  | nil => rfl
  | cons p ps ih =>
    by_cases h : p.1.passes
    · simp [h, ih]
    · simp [h, ih]

/-- What holds of all actions, taken with their places. -/
theorem forall_mem_zipIdx {P : Action → Prop} {actions : List Action} :
    (∀ p ∈ actions.zipIdx, P p.1) ↔ ∀ a ∈ actions, P a := by
  rw [← List.forall_mem_map (f := Prod.fst), List.zipIdx_map_fst]

/-- A program is made of the diagnostics of the skipped actions, the declarations of the others and
their instructions, and it can be made when every action can be handled. -/
theorem program_eq_ok [Resolver] {g : Generator} {actions : List Action} {os : List Offer} :
    g.program actions = .ok os ↔
      (∀ a ∈ actions, g.Emittable a) ∧
      os = actions.zipIdx.flatMap skipped ++
        (actions.flatMap g.declared ++ actions.flatMap g.instructed) := by
  have hitems (q : Action → Outcome (List Offer)) := flatMap_filter_passes q actions.zipIdx
  simp only [List.zipIdx_map_fst] at hitems
  unfold program
  simp only [Outcome.bind_eq_ok, select_eq_ok, Outcome.both_eq_ok, Outcome.flatten_mapM_eq_ok]
  constructor
  · rintro ⟨-, ⟨hselect, rfl⟩, -, -, ⟨⟩, ⟨-, -, ⟨hoffers, rfl⟩, ⟨hinstructions, rfl⟩, rfl⟩, rfl⟩
    simp only [List.mem_filter] at hoffers hinstructions
    refine ⟨forall_mem_zipIdx.mp fun p hp => ?_, ?_⟩
    · exact ⟨(hselect p hp).1, (hselect p hp).2, fun h => hoffers p ⟨hp, h⟩,
        fun h => hinstructions p ⟨hp, h⟩⟩
    · simp only [hitems]
      rfl
  · rintro ⟨hemittable, rfl⟩
    rw [← forall_mem_zipIdx] at hemittable
    refine ⟨_, ⟨fun p hp => ⟨(hemittable p hp).decided, (hemittable p hp).text⟩, rfl⟩, _, _, rfl,
      ⟨_, _, ⟨fun p hp => ?_, rfl⟩, ⟨fun p hp => ?_, rfl⟩, rfl⟩, ?_⟩
    · obtain ⟨hp, hpasses⟩ := List.mem_filter.mp hp
      exact (hemittable p hp).declarations hpasses
    · obtain ⟨hp, hpasses⟩ := List.mem_filter.mp hp
      exact (hemittable p hp).instructions hpasses
    · simp only [hitems]
      rfl

/-! ### A small cell -/

/-- A robot whose axes all turn about the vertical axis of the world. -/
def benchRobot : Robot Float where
  name := .text "bench"
  axisFrames := Vector.replicate 6 .world
  axisLimits := Vector.replicate 6 ⟨-180.0, 180.0⟩
  baseFrame := .world
  mountingFrame := .world
  tool := .default
  toolFrame := .world
  mechanisms := []
  wellNumbered := by simp [WellNumbered]

/-- A generator for that robot. -/
def bench : Generator := ⟨benchRobot, {}⟩

/-- A robot target at the origin of its work object. -/
def benchTarget (name : String) : RobotTarget :=
  ⟨.text name, some .world, 0, some .undefined, .const⟩

/-- A slow movement to the origin of a work object. -/
def benchMovement (kind : MoveKind) (workObject : WorkObject) : Movement where
  speed := some .slowest
  kind := .known kind
  precision := .int (-1)
  tool := none
  workObject
  output := none
  globalFrame := some workObject.userFrame

/-- A resolver whose first axis shows where a target stands. -/
abbrev turnsToPoint : Resolver where
  resolver _ := .ok fun frame slots _ =>
    .ok ⟨#v[frame.point.x, 0.0, 0.0, 0.0, 0.0, 0.0], slots, true, [], 0⟩
  reports := by
    rintro robot resolve target slots owner solution ⟨⟩ ⟨⟩ hvalid
    cases hvalid

/-- A work object apart from the origin of the world. -/
def fixture : WorkObject := ⟨.text "fixture", ⟨⟨100.0, 0.0, 0.0⟩, .unitX, .unitY⟩, .world⟩

end Program.Generator

end RobotProgram
