import RobotProgram.Proofs.Composition
import RobotProgram.Proofs.Diagnostics

/-!
# The diagnostics of a program

`errors_eq` gives the diagnostics of a returned program in full: first one for each action that is
skipped, then the batches of the targets, then one for each movement of an unknown type. A batch
comes with the registration of a target, and so only where its name is new, or from a target that is
written in place. `reporting` lists the actions with a batch, and `batched_offers` shows that an
action reports its batch exactly then.
-/

namespace RobotProgram

namespace Action

/-- The kind of an action in messages. -/
def kindText : Action → String
  | robotJoints _ => RobotJoints.kindText
  | externalJoints _ => ExternalJoints.kindText
  | jointTarget _ => JointTarget.kindText
  | robotTarget _ => RobotTarget.kindText
  | speed _ => Speed.kindText
  | wait _ => Wait.kindText
  | output _ => Output.kindText
  | movement _ _ => Movement.kindText

/-- An action that is not valid says so with its kind. -/
theorem text_of_invalid {a : Action} (h : a.isValid = .ok false) :
    a.text = .ok ("Invalid " ++ a.kindText) := by
  cases a with
  | robotJoints p => simp [text, RobotJoints.text, namedText, kindText, Except.ok.inj h]
  | externalJoints p => simp [text, ExternalJoints.text, namedText, kindText, Except.ok.inj h]
  | jointTarget t => simp [text, JointTarget.text, namedText, kindText, Except.ok.inj h]
  | wait w => simp [text, Wait.text, kindText, Except.ok.inj h]
  | output o => simp [text, Output.text, kindText, Except.ok.inj h]
  | robotTarget t =>
    have hvalid : t.isValid = .ok false := h
    simp [text, RobotTarget.text, hvalid, namedText, kindText, bind, Except.bind, pure,
      Except.pure]
  | speed s =>
    have hvalid : s.isValid = .ok false := h
    simp [text, Speed.text, hvalid, kindText, bind, Except.bind, pure, Except.pure]
  | movement m target =>
    have hvalid : movementIsValid m target = .ok false := h
    simp [text, movementText, hvalid, kindText, bind, Except.bind, pure, Except.pure]

/-- A movement whose type is not known. -/
def isUnknown : Action → Bool
  | movement m _ =>
    match m.kind with
    | .other _ => true
    | .known _ => false
  | _ => false

end Action

namespace Program

namespace Buffers

/-- The diagnostics that an offer leads to. -/
def reportedBy (b : Buffers) : Offer → List String
  | .declare key _ _ problems => if b.declares key then [] else problems
  | .report problems => problems
  | .instruct _ => []

/-- The diagnostics that offers lead to when they are made in order. -/
def reported (b : Buffers) : List Offer → List String
  | [] => []
  | o :: os => b.reportedBy o ++ (b.accept o).reported os

/-- An offer adds the diagnostics that it leads to. -/
theorem errors_accept (b : Buffers) (o : Offer) :
    (b.accept o).errors = b.errors ++ b.reportedBy o := by
  cases o with
  | declare key d line problems => by_cases h : b.declares key <;> simp [accept, reportedBy, h]
  | report problems => rfl
  | instruct line => by_cases h : line.isEmpty <;> simp [accept, reportedBy, h]

/-- Diagnostics are added in order. -/
theorem errors_acceptAll (b : Buffers) (os : List Offer) :
    (b.acceptAll os).errors = b.errors ++ b.reported os := by
  induction os generalizing b with
  | nil => simp [reported]
  | cons o os ih => rw [acceptAll_cons, ih, errors_accept, reported, List.append_assoc]

/-- Offers in a row lead to the diagnostics of each part, made after the one before. -/
theorem reported_append (b : Buffers) (os os' : List Offer) :
    b.reported (os ++ os') = b.reported os ++ (b.acceptAll os).reported os' := by
  induction os generalizing b with
  | nil => rfl
  | cons o os ih => rw [List.cons_append, reported, ih, reported, acceptAll_cons, List.append_assoc]

/-- Which diagnostics offers lead to depends on the declarations alone. -/
theorem reported_congr {b b' : Buffers} (h : b.SameTable b') (os : List Offer) :
    b.reported os = b'.reported os := by
  induction os generalizing b b' with
  | nil => rfl
  | cons o os ih =>
    rw [reported, reported, ih (h.accept o)]
    cases o <;> simp [reportedBy, h.declares]

/-- Quiet offers lead to no diagnostics. -/
theorem reported_of_quietAll {b : Buffers} {os : List Offer} (h : b.QuietAll os) :
    b.reported os = [] := by
  induction os generalizing b with
  | nil => rfl
  | cons o os ih =>
    have hfirst : b.reportedBy o = [] := by
      cases o with
      | declare key d line problems =>
        obtain hkey | rfl := h.1
        · simp [reportedBy, hkey]
        · simp [reportedBy]
      | report problems => exact h.1
      | instruct line => rfl
    rw [reported, hfirst, ih h.2, List.append_nil]

/-- Whether something can be registered under a name because nothing is yet. -/
def isNew (b : Buffers) (name : Value) : Bool :=
  match symbolKey name with
  | .ok key => !b.declares key
  | .error _ => false

/-- One of the offers registers something new under a key. -/
def Adds (b : Buffers) (os : List Offer) (key : Atom) : Prop :=
  ∃ before d line problems after, os = before ++ .declare key d line problems :: after ∧
    (b.acceptAll before).declares key = false

/-- Offers after others may register something new. -/
theorem Adds.append_left {b : Buffers} {os os' : List Offer} {key : Atom}
    (h : (b.acceptAll os).Adds os' key) : b.Adds (os ++ os') key := by
  obtain ⟨before, d, line, problems, after, rfl, hfree⟩ := h
  refine ⟨os ++ before, d, line, problems, after, by simp, ?_⟩
  rwa [acceptAll_append]

/-- What is registered as new stands behind the symbols that were there. -/
theorem Adds.exists_symbols {b : Buffers} {os : List Offer} {key : Atom} (h : b.Adds os key) :
    ∃ new, (b.acceptAll os).symbols = b.symbols ++ new ∧ key ∈ new.map Prod.fst := by
  obtain ⟨before, d, line, problems, after, rfl, hfree⟩ := h
  obtain ⟨earlier, hearlier⟩ := symbols_prefix_acceptAll b before
  obtain ⟨later, hlater⟩ := symbols_prefix_acceptAll
    ((b.acceptAll before).accept (.declare key d line problems)) after
  have hadded : ((b.acceptAll before).accept (.declare key d line problems)).symbols =
      (b.acceptAll before).symbols ++ [(key, d)] := by
    simp [accept, hfree, declare]
  refine ⟨earlier ++ (key, d) :: later, ?_, by simp⟩
  rw [acceptAll_append, acceptAll_cons, ← hlater, hadded, ← hearlier]
  simp

end Buffers

namespace Generator

open Kinematics (Resolver Solution)

/-- Whether a joint target is registered as new under its name. Its parts come before it, and one of
the same name takes it. -/
def registersJoint (b : Buffers) (t : JointTarget) : Bool :=
  (b.acceptAll (jointPartOffers t).items).isNew t.name

/-- Whether an action reports a batch of diagnostics when `b` is declared before it: a joint target
on its own when it is registered as new; a movement when its target is anonymous or registered as
new, which for a robot target is done under the name of the destination and by a movement of a known
type only. -/
def reports (b : Buffers) : Action → Bool
  | .jointTarget t => registersJoint b t
  | .movement m (some (.jointTarget t)) => !t.name.truthy || registersJoint (atTarget b m) t
  | .movement m (some (.robotTarget t)) =>
    match m.kind with
    | .known kind => !t.name.truthy || (atTarget b m).isNew (destinationName kind t)
    | .other _ => false
  | _ => false

/-- The batch of an action: the limits that its joint target violates, or the problems of the
solution of its robot target. -/
def batch [Resolver] (g : Generator) : Action → Outcome (List String)
  | .jointTarget t | .movement _ (some (.jointTarget t)) => t.limitMessages g.robot
  | .movement m (some (.robotTarget t)) => do
    return g.problems t (← (m.solve (some (.robotTarget t)) g.robot).outcome)
  | _ => .ok []

/-- The name under which the target of an action is registered. -/
def batchName : Action → Value
  | .jointTarget t | .movement _ (some (.jointTarget t)) => t.name
  | .movement m (some (.robotTarget t)) =>
    match m.kind with
    | .known kind => destinationName kind t
    | .other _ => t.name
  | _ => .null

/-- The actions with a batch, when `b` is declared before them. -/
def reporting [Resolver] (g : Generator) (b : Buffers) : List Action → List Action
  | [] => []
  | a :: as =>
    let rest := g.reporting (b.acceptAll (g.declared a)) as
    if a.passes && reports b a then a :: rest else rest

/-- The names of batches that have one. -/
def batchKeys (actions : List Action) : List Atom :=
  actions.filterMap fun a => (symbolKey (batchName a)).toOption

/-- The diagnostic of an action that is skipped at its place. -/
def skipText (p : Action × Nat) : String :=
  "Action " ++ toString p.2 ++ ": " ++ ("Invalid " ++ p.1.kindText) ++ " is skipped."

/-- The diagnostic of a movement of an unknown type, which names the type. -/
def UnknownMessage (a : Action) (message : String) : Prop :=
  ∃ m target v n, a = .movement m target ∧ m.kind = .other v ∧ v.integer = .ok n ∧
    message = Movement.kindText ++ ": Unknown movement type " ++ toString n ++ "."

/-! ### The batch of an action -/

/-- A declaration reports its problems when its name is new. -/
theorem reported_offerAs {b : Buffers} {name : Value} {d : Declared} {line : String}
    {problems : List String} {os : List Offer} (h : offerAs name d line problems = .ok os) :
    (b.reported os = if b.isNew name then problems else []) ∧
      (b.isNew name = true → ∀ key, symbolKey name = .ok key → b.Adds os key) := by
  obtain ⟨key, hkey, h⟩ := Outcome.bind_eq_ok.mp h
  obtain rfl := Outcome.pure_eq_ok.mp h
  simp only [Buffers.isNew, hkey]
  refine ⟨?_, fun hnew => ?_⟩
  · by_cases hdeclares : b.declares key <;> simp [Buffers.reported, Buffers.reportedBy, hdeclares]
  · rintro _ ⟨⟩
    exact ⟨[], d, line, problems, [], rfl, by simpa using hnew⟩

/-- A name that does not count is never new. -/
theorem isNew_of_anonymous {b : Buffers} {name : Value} (h : name.truthy = false) :
    b.isNew name = false := by
  simp [Buffers.isNew, symbolKey, h]

/-- A joint target reports its limits when it is registered as new under its name. -/
theorem reported_jointTargetOffers {g : Generator} {b : Buffers} {t : JointTarget}
    {os : List Offer} (h : g.jointTargetOffers t = .ok os) :
    (registersJoint b t = false → b.reported os = []) ∧
      (registersJoint b t = true → t.limitMessages g.robot = .ok (b.reported os)) ∧
      (registersJoint b t = true → ∀ key, symbolKey t.name = .ok key → b.Adds os key) := by
  obtain ⟨ps, qs, hps, hqs, rfl⟩ := Outcome.both_eq_ok.mp h
  have hparts := Buffers.reported_of_quietAll (gives_quietAll_jointPartOffers b t ps hps)
  rw [Buffers.reported_append, hparts, List.nil_append, registersJoint, hps, Outcome.items]
  unfold ownJointOffers at hqs
  by_cases hname : t.name.truthy
  · rw [if_pos hname] at hqs
    obtain ⟨line, -, hqs⟩ := Outcome.bind_eq_ok.mp hqs
    obtain ⟨messages, hmessages, hqs⟩ := Outcome.bind_eq_ok.mp hqs
    obtain ⟨hreported, hadds⟩ := reported_offerAs (b := b.acceptAll ps) hqs
    rw [hreported]
    exact ⟨fun hold => by simp [hold], fun hnew => by simp [hnew, hmessages],
      fun hnew key hkey => (hadds hnew key hkey).append_left⟩
  · rw [if_neg hname] at hqs
    obtain rfl := Except.ok.inj hqs
    have hanonymous := isNew_of_anonymous (b := b.acceptAll ps) (by simpa using hname)
    simp [hanonymous, Buffers.reported]

/-- The diagnostics of skipped actions name their places and their kinds. -/
theorem reported_skipped {ps : List (Action × Nat)}
    (h : ∀ p ∈ ps, ∃ valid, p.1.isValid = .ok valid) (b : Buffers) :
    b.reported (ps.flatMap skipped) = (ps.filter fun p => !p.1.passes).map skipText := by
  induction ps generalizing b with
  | nil => rfl
  | cons p ps ih =>
    rw [List.forall_mem_cons] at h
    obtain ⟨⟨valid, hvalid⟩, hrest⟩ := h
    rw [List.flatMap_cons, Buffers.reported_append, ih hrest]
    cases valid with
    | true =>
      have hpasses := Action.passes_eq_true.mpr hvalid
      simp [skipped, hpasses, Buffers.reported]
    | false =>
      have hpasses : p.1.passes = false := by simp [Action.passes, hvalid]
      have hskipped : skipped p = [.report [skipText p]] := by
        simp [skipped, skipMessage, skipText, hpasses, Action.text_of_invalid hvalid,
          Outcome.items, bind, Except.bind, pure, Except.pure]
      simp [hskipped, hpasses, Buffers.reported, Buffers.reportedBy]

/-- What an action offers leads to its batch, or to no diagnostics when it reports none. -/
structure Batched [Resolver] (g : Generator) (b : Buffers) (a : Action) (os : List Offer) :
    Prop where
  silent : reports b a = false → b.reported os = []
  batch : reports b a = true → g.batch a = .ok (b.reported os)
  adds : reports b a = true → ∀ key, symbolKey (batchName a) = .ok key → b.Adds os key

section

variable [Resolver] {g : Generator} {b : Buffers}

/-- Quiet offers of an action without a batch. -/
theorem Batched.of_quiet {a : Action} {os : List Offer} (h : reports b a = false)
    (hquiet : b.QuietAll os) : g.Batched b a os := by
  refine ⟨fun _ => Buffers.reported_of_quietAll hquiet, fun hreports => ?_, fun hreports => ?_⟩
  · rw [h] at hreports
    cases hreports
  · rw [h] at hreports
    cases hreports

/-- A movement to a joint target reports its limits when the target is registered as new or written
in place. -/
theorem batched_jointMovement {m : Movement} {t : JointTarget} {os : List Offer}
    (h : g.offers (.movement m (some (.jointTarget t))) = .ok os) :
    g.Batched b (.movement m (some (.jointTarget t))) os := by
  rw [offers] at h
  obtain ⟨ps, qs, hps, hqs, rfl⟩ := Outcome.both_eq_ok.mp h
  obtain ⟨js, is, hjs, his, rfl⟩ := Outcome.both_eq_ok.mp hqs
  have hparts := Buffers.reported_of_quietAll (gives_quietAll_partOffers b m ps hps)
  have htarget : b.acceptAll ps = atTarget b m := by rw [atTarget, hps]; rfl
  obtain ⟨hsilent, hbatch, hadds⟩ := reported_jointTargetOffers (b := atTarget b m) hjs
  have hreported : b.reported (ps ++ (js ++ is)) = (atTarget b m).reported js ++
      ((atTarget b m).acceptAll js).reported is := by
    rw [Buffers.reported_append, hparts, htarget, Buffers.reported_append, List.nil_append]
  unfold inlineJointOffers at his
  cases hname : t.name.truthy with
  | true =>
    -- The limits come with the declaration alone.
    rw [hname] at his
    obtain rfl := Except.ok.inj his
    have hreports : reports b (.movement m (some (.jointTarget t))) =
        registersJoint (atTarget b m) t := by
      simp [reports, hname]
    simp only [Buffers.reported, List.append_nil] at hreported
    rw [List.append_nil]
    refine ⟨fun hold => ?_, fun hnew => ?_, fun hnew key hkey => ?_⟩
    · rw [hreported, hsilent (hreports ▸ hold)]
    · rw [hreported]
      exact hbatch (hreports ▸ hnew)
    · exact Buffers.Adds.append_left (htarget ▸ hadds (hreports ▸ hnew) key hkey)
  | false =>
    -- The target declares nothing, and the limits are reported in any case.
    rw [hname] at his
    obtain ⟨messages, hmessages, his⟩ := Outcome.bind_eq_ok.mp his
    obtain rfl := Outcome.pure_eq_ok.mp his
    have hold : registersJoint (atTarget b m) t = false := isNew_of_anonymous hname
    refine ⟨fun hreports => ?_, fun _ => ?_, fun _ key hkey => ?_⟩
    · simp [reports, hname] at hreports
    · simp [hreported, batch, hmessages, hsilent hold, Buffers.reported, Buffers.reportedBy]
    · have htruthy : t.name.truthy = true := (symbolKey_eq_ok.mp hkey).1
      rw [hname] at htruthy
      cases htruthy

/-- A movement of a known type to a robot target reports the problems of its solution when the
destination is registered as new or written in place. -/
theorem batched_robotMovement {m : Movement} {kind : MoveKind} (hkind : m.kind = .known kind)
    {t : RobotTarget} {os : List Offer}
    (h : g.offers (.movement m (some (.robotTarget t))) = .ok os) :
    g.Batched b (.movement m (some (.robotTarget t))) os := by
  rw [offers_robotMovement g hkind] at h
  obtain ⟨ps, qs, hps, hqs, rfl⟩ := Outcome.both_eq_ok.mp h
  obtain ⟨solution, hsolution, hqs⟩ := Outcome.bind_eq_ok.mp hqs
  have hparts := Buffers.reported_of_quietAll (gives_quietAll_partOffers b m ps hps)
  have htarget : b.acceptAll ps = atTarget b m := by rw [atTarget, hps]; rfl
  have hreported : b.reported (ps ++ qs) = (atTarget b m).reported qs := by
    rw [Buffers.reported_append, hparts, htarget, List.nil_append]
  have hbatch : g.batch (.movement m (some (.robotTarget t))) = .ok (g.problems t solution) := by
    simp only [batch, hsolution]
    rfl
  simp only [destinationOffers] at hqs
  cases hname : t.name.truthy with
  | true =>
    simp only [hname, if_true] at hqs
    obtain ⟨line, -, hqs⟩ := Outcome.bind_eq_ok.mp hqs
    obtain ⟨hdeclared, hadds⟩ := reported_offerAs (b := atTarget b m) hqs
    rw [destination_name] at hdeclared hadds
    have hreports : reports b (.movement m (some (.robotTarget t))) =
        (atTarget b m).isNew (destinationName kind t) := by
      simp [reports, hkind, hname]
    rw [← hreports] at hdeclared hadds
    refine ⟨fun hold => ?_, fun hnew => ?_, fun hnew key hkey => ?_⟩
    · rw [hreported, hdeclared, hold]
      rfl
    · rw [hreported, hdeclared, hnew, hbatch]
      rfl
    · simp only [batchName, hkind] at hkey
      exact Buffers.Adds.append_left (htarget ▸ hadds hnew key hkey)
  | false =>
    simp only [hname, Bool.false_eq_true, if_false] at hqs
    obtain rfl := Except.ok.inj hqs
    refine ⟨fun hreports => ?_, fun _ => ?_, fun _ key hkey => ?_⟩
    · simp [reports, hkind, hname] at hreports
    · simp [hreported, hbatch, Buffers.reported, Buffers.reportedBy]
    · have hanonymous := destinationName_truthy kind t
      simp only [batchName, hkind] at hkey
      rw [(symbolKey_eq_ok.mp hkey).1, hname] at hanonymous
      cases hanonymous

/-- What a valid action offers leads to its batch. -/
theorem batched_offers {a : Action} {os : List Offer} (hvalid : a.isValid = .ok true)
    (h : g.offers a = .ok os) : g.Batched b a os := by
  cases a with
  | robotJoints p => exact .of_quiet rfl (gives_quietAll_robotJointsOffers b p os h)
  | externalJoints p => exact .of_quiet rfl (gives_quietAll_externalJointsOffers b p os h)
  | robotTarget t => exact .of_quiet rfl (gives_quietAll_robotTargetOffers b t os h)
  | speed s => exact .of_quiet rfl (gives_quietAll_speedOffers b s os h)
  | wait w =>
    obtain rfl := Except.ok.inj h
    exact .of_quiet rfl trivial
  | output o =>
    obtain rfl := Except.ok.inj h
    exact .of_quiet rfl trivial
  | jointTarget t =>
    obtain ⟨hsilent, hbatch, hadds⟩ := reported_jointTargetOffers (b := b) h
    exact ⟨hsilent, hbatch, hadds⟩
  | movement m target =>
    obtain ⟨t, rfl⟩ | ⟨t, rfl⟩ := Action.target_of_valid hvalid
    · exact batched_jointMovement h
    · cases hkind : m.kind with
      | known kind => exact batched_robotMovement hkind h
      | other v =>
        -- The target is declared as if it stood alone, without diagnostics.
        rw [offers_movement g m (by simp), hkind] at h
        exact .of_quiet (by simp [reports, hkind]) (gives_quietAll_both
          (gives_quietAll_partOffers b m) (gives_quietAll_robotTargetOffers · t) os h)

/-! ### The diagnostics of a program -/

/-- What actions declare leads to the batches of those that report, in order. -/
theorem exists_batches {actions : List Action} (h : ∀ a ∈ actions, g.Emittable a) (b : Buffers) :
    ∃ batches, List.Forall₂ (fun a messages => g.batch a = .ok messages) (g.reporting b actions)
        batches ∧
      b.reported (actions.flatMap g.declared) = batches.flatten := by
  induction actions generalizing b with
  | nil => exact ⟨[], .nil, rfl⟩
  | cons a actions ih =>
    rw [List.forall_mem_cons] at h
    obtain ⟨batches, hbatches, hreported⟩ := ih h.2 (b.acceptAll (g.declared a))
    rw [List.flatMap_cons, Buffers.reported_append, hreported, reporting]
    by_cases hpasses : a.passes
    · obtain ⟨os, hos⟩ := h.1.declarations hpasses
      have hdeclared : g.declared a = os := by rw [declared, if_pos hpasses, hos]; rfl
      have hown := batched_offers (b := b) (Action.passes_eq_true.mp hpasses) hos
      rw [hdeclared, hpasses, Bool.true_and]
      rw [hdeclared] at hbatches
      by_cases hreports : reports b a
      · rw [if_pos hreports]
        exact ⟨b.reported os :: batches, .cons (hown.batch hreports) hbatches, rfl⟩
      · rw [if_neg hreports, hown.silent (by simpa using hreports)]
        exact ⟨batches, hbatches, rfl⟩
    · -- A skipped action declares nothing.
      have hdeclared : g.declared a = [] := by simp [declared, hpasses]
      rw [hdeclared] at hbatches ⊢
      simp only [hpasses, Bool.false_and, Bool.false_eq_true, if_false]
      exact ⟨batches, hbatches, rfl⟩

/-- The names of the batches are registered as new, in order. -/
theorem batchKeys_sublist {actions : List Action} (h : ∀ a ∈ actions, g.Emittable a)
    (b : Buffers) :
    ∃ new, (b.acceptAll (actions.flatMap g.declared)).symbols = b.symbols ++ new ∧
      (batchKeys (g.reporting b actions)).Sublist (new.map Prod.fst) := by
  induction actions generalizing b with
  | nil => exact ⟨[], by simp, .slnil⟩
  | cons a actions ih =>
    rw [List.forall_mem_cons] at h
    obtain ⟨new, hnew, hsublist⟩ := ih h.2 (b.acceptAll (g.declared a))
    rw [List.flatMap_cons, Buffers.acceptAll_append, hnew, reporting]
    obtain ⟨own, hown⟩ := Buffers.symbols_prefix_acceptAll b (g.declared a)
    have hsymbols (new' : List (Atom × Declared)) :
        (b.acceptAll (g.declared a)).symbols ++ new' = b.symbols ++ (own ++ new') := by
      rw [← hown, List.append_assoc]
    have hrest : (batchKeys (g.reporting (b.acceptAll (g.declared a)) actions)).Sublist
        ((own ++ new).map Prod.fst) := by
      rw [List.map_append]
      exact hsublist.trans (List.sublist_append_right _ _)
    refine ⟨own ++ new, hsymbols new, ?_⟩
    by_cases hreports : (a.passes && reports b a) = true
    · rw [if_pos hreports]
      simp only [Bool.and_eq_true] at hreports
      cases hkey : symbolKey (batchName a) with
      | error f => simpa [batchKeys, hkey, Except.toOption] using hrest
      | ok key =>
        -- The name is registered by this action, before those of the actions behind it.
        obtain ⟨os, hos⟩ := h.1.declarations hreports.1
        have hdeclared : g.declared a = os := by rw [declared, if_pos hreports.1, hos]; rfl
        have hbatched := batched_offers (b := b) (Action.passes_eq_true.mp hreports.1) hos
        obtain ⟨own', hown', hmem⟩ := (hbatched.adds hreports.2 key hkey).exists_symbols
        rw [hdeclared, hown', List.append_cancel_left_eq] at hown
        rw [hown, List.map_append]
        have hfirst : [key].Sublist (own'.map Prod.fst) := List.singleton_sublist.mpr hmem
        simpa [batchKeys, hkey, Except.toOption] using hfirst.append hsublist
    · rw [if_neg hreports]
      exact hrest

/-- A valid movement of an unknown type gives the diagnostic of its type, and no instruction. -/
theorem instructed_of_unknown {a : Action} (ha : g.Emittable a) (hpasses : a.passes = true)
    (hunknown : a.isUnknown = true) :
    ∃ message, UnknownMessage a message ∧ g.instructed a = [.report [message]] := by
  obtain ⟨os, hos⟩ := ha.instructions hpasses
  have hinstructed : g.instructed a = os := by rw [instructed, if_pos hpasses, hos]; rfl
  cases a with
  | movement m target =>
    cases hkind : m.kind with
    | known kind => simp [Action.isUnknown, hkind] at hunknown
    | other v =>
      obtain ⟨text, htext, hos⟩ := Outcome.bind_eq_ok.mp hos
      have hempty : text = "" := by
        simp only [Movement.instruction, hkind] at htext
        exact (Except.ok.inj htext).symm
      subst hempty
      obtain ⟨message, hmessage, hos⟩ := Outcome.bind_eq_ok.mp hos
      obtain ⟨movement, hmovement, hmessage⟩ := Outcome.bind_eq_ok.mp hmessage
      obtain ⟨n, hn, hmessage⟩ := Outcome.bind_eq_ok.mp hmessage
      -- A valid movement of an unknown type has no name in its text.
      have hvalid : Action.movementIsValid m target = .ok true := Action.passes_eq_true.mp hpasses
      have hword : movement = Movement.kindText := by
        simpa [Action.movementText, hvalid, hkind, bind, Except.bind, pure, Except.pure, eq_comm]
          using hmovement
      rw [hkind] at hn
      refine ⟨message, ⟨m, target, v, n, rfl, hkind, hn, ?_⟩, ?_⟩
      · rw [← Outcome.pure_eq_ok.mp hmessage, hword]
      · rw [hinstructed, ← Outcome.pure_eq_ok.mp hos]
  | _ => simp [Action.isUnknown] at hunknown

/-- The instructions of an action of a known type give no diagnostics. -/
theorem reported_instructed {a : Action} (ha : g.Emittable a) (hunknown : a.isUnknown = false)
    (b : Buffers) : b.reported (g.instructed a) = [] := by
  unfold instructed
  by_cases hpasses : a.passes
  · obtain ⟨os, hos⟩ := ha.instructions hpasses
    rw [if_pos hpasses, hos]
    refine Buffers.reported_of_quietAll ((quietAll_instructionOffers hos).mpr ?_)
    rintro m target rfl
    cases hkind : m.kind with
    | known kind => exact ⟨kind, rfl⟩
    | other v => simp [Action.isUnknown, hkind] at hunknown
  · rw [if_neg hpasses]
    rfl

/-- The instructions of actions give a diagnostic for each valid movement of an unknown type. -/
theorem exists_unknowns {actions : List Action} (h : ∀ a ∈ actions, g.Emittable a) (b : Buffers) :
    ∃ messages, List.Forall₂ UnknownMessage
        (actions.filter fun a => a.passes && a.isUnknown) messages ∧
      b.reported (actions.flatMap g.instructed) = messages := by
  induction actions generalizing b with
  | nil => exact ⟨[], .nil, rfl⟩
  | cons a actions ih =>
    rw [List.forall_mem_cons] at h
    obtain ⟨messages, hmessages, hreported⟩ := ih h.2 (b.acceptAll (g.instructed a))
    rw [List.flatMap_cons, Buffers.reported_append, hreported, List.filter_cons]
    by_cases hunknown : (a.passes && a.isUnknown) = true
    · rw [if_pos hunknown]
      simp only [Bool.and_eq_true] at hunknown
      obtain ⟨message, hmessage, hown⟩ := instructed_of_unknown h.1 hunknown.1 hunknown.2
      refine ⟨message :: messages, .cons hmessage hmessages, ?_⟩
      rw [hown]
      rfl
    · rw [if_neg hunknown]
      have hown : b.reported (g.instructed a) = [] := by
        cases hpasses : a.passes with
        | false => simp [instructed, hpasses, Buffers.reported]
        | true =>
          rw [hpasses, Bool.true_and] at hunknown
          exact reported_instructed h.1 (by simpa using hunknown) b
      exact ⟨messages, hmessages, by rw [hown, List.nil_append]⟩

/-- A movement of an unknown type gives no instruction. -/
theorem instructionLines_of_unknown {a : Action} (ha : g.Emittable a)
    (hunknown : a.isUnknown = true) : g.instructionLines a = [] := by
  unfold instructionLines
  cases hpasses : a.passes with
  | false => simp [instructed, hpasses]
  | true =>
    obtain ⟨message, -, hown⟩ := instructed_of_unknown ha hpasses hunknown
    rw [hown]
    rfl

/-- The diagnostics of a returned program: one for each action that is skipped, with its place; then
the batches of the actions that report one, in order and at most one for each registered name; then
one for each valid movement of an unknown type, which gives no instruction. -/
theorem errors_eq {actions : List Action} {r₀ r : Run} {texts : String × String}
    (h : (g.generate actions).run r₀ = (.ok texts, r)) :
    ∃ batches unknowns,
      r.buffers.errors = (actions.zipIdx.filter fun p => !p.1.passes).map skipText ++
        (batches.flatten ++ unknowns) ∧
      List.Forall₂ (fun a messages => g.batch a = .ok messages) (g.reporting {} actions) batches ∧
      (batchKeys (g.reporting {} actions)).Sublist (r.buffers.symbols.map Prod.fst) ∧
      ((batchKeys (g.reporting {} actions)).Pairwise fun k k' => k.finds k' = false) ∧
      List.Forall₂ UnknownMessage (actions.filter fun a => a.passes && a.isUnknown) unknowns ∧
      r.buffers.instructions =
        (actions.filter fun a => !a.isUnknown).flatMap g.instructionLines := by
  obtain ⟨os, hprogram, hbuffers⟩ := generate_returns h
  obtain ⟨hemittable, rfl⟩ := program_eq_ok.mp hprogram
  have hdecided : ∀ p ∈ actions.zipIdx, ∃ valid, p.1.isValid = .ok valid := by
    intro p hp
    refine (hemittable p.1 ?_).decided
    rw [← List.zipIdx_map_fst 0 actions]
    exact List.mem_map_of_mem hp
  obtain ⟨batches, hbatches, hdeclared⟩ := exists_batches hemittable {}
  obtain ⟨unknowns, hunknowns, hinstructed⟩ := exists_unknowns hemittable
    ((Buffers.acceptAll {} (actions.zipIdx.flatMap skipped)).acceptAll
      (actions.flatMap g.declared))
  obtain ⟨new, hnew, hsublist⟩ := batchKeys_sublist hemittable {}
  -- The names of the batches are among those of the table, of which none is found under another.
  have hkeys : (batchKeys (g.reporting {} actions)).Sublist (r.buffers.symbols.map Prod.fst) := by
    have hsymbols : (g.declaredBy actions).symbols = new := hnew
    rwa [(generate_sameTable h).1, hsymbols]
  have hempty : Buffers.Distinct {} := List.Pairwise.nil
  have hdistinct : (g.declaredBy actions).Distinct := hempty.acceptAll _
  refine ⟨batches, unknowns, ?_, hbatches, hkeys, ?_, hunknowns, ?_⟩
  · rw [hbuffers, Buffers.errors_acceptAll, Buffers.reported_append, Buffers.reported_append,
      reported_skipped hdecided, Buffers.reported_congr (sameTable_skipped actions), hdeclared,
      hinstructed]
    rfl
  · refine List.Pairwise.sublist hkeys ?_
    rw [(generate_sameTable h).1, List.pairwise_map]
    exact hdistinct
  · rw [generate_instructions h]
    refine (flatMap_filter_of_nil fun a ha hunknown => ?_).symm
    exact instructionLines_of_unknown (hemittable a ha) (by simpa using hunknown)

end

/-- A wait that is not valid, two movements to one target and one of an unknown type. -/
def troubledActions : List Action :=
  [.wait ⟨-1.0, false⟩,
    .movement (benchMovement .linear .default) (some (.robotTarget (benchTarget "far"))),
    .movement (benchMovement .linear .default) (some (.robotTarget (benchTarget "far"))),
    .movement { benchMovement .linear .default with kind := .other (.int 7) }
      (some (.robotTarget (benchTarget "far")))]

/-- The target is reported once, by the movement that registers it. -/
theorem errors_eq_troubled :
    letI := reachesNothing
    ∃ texts r, (bench.generate troubledActions).run {} = (.ok texts, r) ∧
      r.buffers.errors = ["Action 0: Invalid Wait Time is skipped.",
        "Robot Target far: The target is unreachable.", "Movement: Unknown movement type 7."] ∧
      ∃ batches unknowns,
        r.buffers.errors = (troubledActions.zipIdx.filter fun p => !p.1.passes).map skipText ++
          (batches.flatten ++ unknowns) ∧
        List.Forall₂ (fun a messages => bench.batch a = .ok messages)
          (bench.reporting {} troubledActions) batches ∧
        (batchKeys (bench.reporting {} troubledActions)).Sublist
          (r.buffers.symbols.map Prod.fst) ∧
        ((batchKeys (bench.reporting {} troubledActions)).Pairwise fun k k' =>
          k.finds k' = false) ∧
        List.Forall₂ UnknownMessage (troubledActions.filter fun a => a.passes && a.isUnknown)
          unknowns ∧
        r.buffers.instructions =
          (troubledActions.filter fun a => !a.isUnknown).flatMap bench.instructionLines := by
  let := reachesNothing
  obtain ⟨texts, h⟩ :=
    Outcome.run_of_isOk (x := bench.generate troubledActions) (s := {}) (by decide +kernel)
  exact ⟨texts, _, h, by decide +kernel, errors_eq h⟩

end Generator

end Program

end RobotProgram
