import Mathlib.Tactic.Common
import RobotProgram.Program.Generate

/-!
# What a step of generation adds to the buffers

A step of program generation offers declarations, diagnostics and instruction lines to the buffers.
An offered declaration is accepted when its name is new, and its diagnostics are reported with it.
`Emits x o` says that the step `x` fails as the outcome `o` does, and otherwise changes the buffers
exactly by accepting the offers that `o` gives, whatever the buffers and the log hold before. It
composes along `++`, so the modules above state what an action offers and never look at a run again.
-/

namespace RobotProgram

/-- The items of two outcomes, one after the other. -/
def Outcome.both {α : Type} (o p : Outcome (List α)) : Outcome (List α) := do
  return (← o) ++ (← p)

/-- Two outcomes together give items when each of them does. -/
theorem Outcome.both_eq_ok {α : Type} {o p : Outcome (List α)} {as : List α} :
    o.both p = .ok as ↔ ∃ xs ys, o = .ok xs ∧ p = .ok ys ∧ as = xs ++ ys := by
  simp only [both, bind_eq_ok, pure_eq_ok]
  constructor
  · rintro ⟨xs, hx, ys, hy, rfl⟩
    exact ⟨xs, ys, hx, hy, rfl⟩
  · rintro ⟨xs, ys, hx, hy, rfl⟩
    exact ⟨xs, hx, ys, hy, rfl⟩

/-- No items after others are not there. -/
@[simp]
theorem Outcome.both_nil {α : Type} (o : Outcome (List α)) : o.both (.ok []) = o := by
  cases o with
  | error f => rfl
  | ok as => simp [both, bind, Except.bind, pure, Except.pure]

/-- The items of a list of outcomes are those of the first, then those of the others. -/
theorem Outcome.flatten_mapM_cons {α β : Type} (q : α → Outcome (List β)) (x : α) (xs : List α) :
    List.flatten <$> (x :: xs).mapM q = .both (q x) (List.flatten <$> xs.mapM q) := by
  rw [List.mapM_cons]
  cases q x with
  | error e => rfl
  | ok os => cases xs.mapM q <;> rfl

namespace Program

/-- Something that a step hands to the buffers. -/
inductive Offer where
  /-- A named declaration and its line, with the diagnostics to report if the name is new. -/
  | declare (key : Atom) (d : Declared) (line : String) (problems : List String)
  /-- Diagnostics that are reported in any case. -/
  | report (problems : List String)
  /-- An instruction line. -/
  | instruct (line : String)

namespace Buffers

/-- The buffers after an offer. -/
def accept (b : Buffers) : Offer → Buffers
  | .declare key d line problems =>
    if b.declares key then b
    else { b.declare key d line with errors := b.errors ++ problems }
  | .report problems => { b with errors := b.errors ++ problems }
  | .instruct line =>
    if line.isEmpty then b else { b with instructions := b.instructions ++ [line] }

/-- The buffers after offers in order. -/
def acceptAll (b : Buffers) (os : List Offer) : Buffers := os.foldl accept b

/-- No offers change nothing. -/
@[simp]
theorem acceptAll_nil (b : Buffers) : b.acceptAll [] = b := rfl

/-- Offers are accepted from the first one on. -/
@[simp]
theorem acceptAll_cons (b : Buffers) (o : Offer) (os : List Offer) :
    b.acceptAll (o :: os) = (b.accept o).acceptAll os := rfl

/-- Offers in a row are accepted one part after the other. -/
@[simp]
theorem acceptAll_append (b : Buffers) (os os' : List Offer) :
    b.acceptAll (os ++ os') = (b.acceptAll os).acceptAll os' := List.foldl_append

end Buffers

/-- The step `x` fails as `o` does, and otherwise changes the buffers by accepting the offers of
`o`. -/
def Emits (x : Emit Unit) (o : Outcome (List Offer)) : Prop :=
  ∀ r : Run, match o with
    | .ok os => (x.run r).1 = .ok () ∧ (x.run r).2.buffers = r.buffers.acceptAll os
    | .error f => (x.run r).1 = .error f

namespace Emit

/-- An outcome, taken as a step, leaves everything as it is. -/
theorem run_lift {α : Type} (o : Outcome α) (r : Run) : (liftM o : Emit α).run r = (o, r) := rfl

/-- A logged computation, taken as a step, gives its outcome and leaves the buffers as they are. -/
theorem run_ofLogged {α : Type} (x : Logged α) (r : Run) :
    ∃ events, (ofLogged x).run r = (x.outcome, { r with events }) := by
  unfold ofLogged Logged.outcome
  rcases x.run [] with ⟨outcome, events⟩
  cases outcome <;> exact ⟨r.events ++ events, rfl⟩

/-- A registration fails without a key; it changes nothing if the key is there, and adds the
symbol if it is new. -/
theorem run_register (name : Value) (d : Declared) (line : String) (r : Run) :
    (register name d line).run r = match symbolKey name with
      | .error f => (.error f, r)
      | .ok key =>
        if r.buffers.declares key then (.ok false, r)
        else (.ok true, { r with buffers := r.buffers.declare key d line }) := by
  unfold register
  rw [Outcome.run_bind, run_lift]
  cases symbolKey name with
  | error f => rfl
  | ok key =>
    simp only
    rw [Outcome.run_bind]
    -- The buffers are read before it is decided whether the key is new.
    change (if r.buffers.declares key then (pure false : Emit Bool) else _).run r = _
    by_cases h : r.buffers.declares key
    · rw [if_pos h, if_pos h]
      rfl
    · rw [if_neg h, if_neg h]
      rfl

end Emit

namespace Emits

variable {x y : Emit Unit} {o p : Outcome (List Offer)}

/-- A step whose runs are known. -/
theorem of_run {os : List Offer}
    (h : ∀ r : Run, ∃ events, x.run r = (.ok (), ⟨r.buffers.acceptAll os, events⟩)) :
    Emits x (.ok os) := by
  intro r
  obtain ⟨events, hr⟩ := h r
  simp only [hr, and_self]

/-- Doing nothing offers nothing. -/
theorem skip : Emits (pure ()) (.ok []) := of_run fun r => ⟨r.events, rfl⟩

/-- Logging offers nothing. -/
theorem log (e : Event) : Emits (Emit.log e) (.ok []) :=
  of_run fun r => ⟨r.events ++ [e], rfl⟩

/-- A failing step fails. -/
theorem fail (f : Fault) : Emits (throw f) (.error f) := fun _ => rfl

/-- Two steps in a row offer what the first offers, then what the second does. -/
theorem seq (hx : Emits x o) (hy : Emits y p) :
    Emits (do x; y) (.both o p) := by
  intro r
  have hxr := hx r
  rw [Outcome.run_bind]
  generalize x.run r = q at hxr ⊢
  obtain ⟨outcome, r'⟩ := q
  cases o with
  | error f =>
    obtain rfl : outcome = .error f := hxr
    rfl
  | ok os =>
    obtain ⟨rfl, hbuffers⟩ := hxr
    -- The second step starts from the buffers that the first leaves.
    have hyr := hy r'
    cases p with
    | error f => exact hyr
    | ok os' =>
      refine ⟨hyr.1, ?_⟩
      rw [Buffers.acceptAll_append, ← hbuffers]
      exact hyr.2

/-- A step that needs the result of an outcome. -/
theorem lift {α : Type} {a : Outcome α} {f : α → Emit Unit} {q : α → Outcome (List Offer)}
    (h : ∀ v, a = .ok v → Emits (f v) (q v)) : Emits (do f (← a)) (do q (← a)) := by
  intro r
  rw [Outcome.run_bind, Emit.run_lift]
  cases a with
  | error e => rfl
  | ok v => exact h v rfl r

/-- A step that needs the result of a logged computation. -/
theorem ofLogged {α : Type} {a : Logged α} {f : α → Emit Unit} {q : α → Outcome (List Offer)}
    (h : ∀ v, a.outcome = .ok v → Emits (f v) (q v)) :
    Emits (do f (← Emit.ofLogged a)) (do q (← a.outcome)) := by
  intro r
  obtain ⟨events, hr⟩ := Emit.run_ofLogged a r
  rw [Outcome.run_bind, hr]
  cases ha : a.outcome with
  | error e => rfl
  | ok v => exact h v ha { r with events }

/-- A context changes only the log. -/
theorem within (context : List (String × Value)) (hx : Emits x o) :
    Emits (Emit.within context x) o := by
  intro r
  have hxr := hx { r with events := [] }
  cases o with
  | error f => exact hxr
  | ok os => exact hxr

/-- A step for each item of a list offers what the steps offer, one after the other. -/
theorem forM {α : Type} {f : α → Emit Unit} {q : α → Outcome (List Offer)}
    (h : ∀ a, Emits (f a) (q a)) (xs : List α) :
    Emits (xs.forM f) (List.flatten <$> xs.mapM q) := by
  induction xs with
  | nil => exact skip
  | cons a xs ih =>
    rw [Outcome.flatten_mapM_cons]
    exact seq (h a) ih

/-- Offers that change all buffers in the same way say the same. -/
theorem congr {os os' : List Offer} (hx : Emits x (.ok os))
    (h : ∀ b : Buffers, b.acceptAll os = b.acceptAll os') : Emits x (.ok os') := by
  intro r
  obtain ⟨houtcome, hbuffers⟩ := hx r
  exact ⟨houtcome, by rw [hbuffers, h]⟩

/-- Equal outcomes say the same. -/
theorem of_eq (h : o = p) (hx : Emits x o) : Emits x p := h ▸ hx

/-- Logging events offers nothing. -/
theorem logs (events : List Event) : Emits (events.forM Emit.log) (.ok []) := by
  induction events with
  | nil => exact skip
  | cons e events ih => exact seq (log e) ih

/-- Diagnostics are reported in order. -/
theorem addDiagnostics (messages : List String) :
    Emits (Program.addDiagnostics messages) (.ok [.report messages]) := by
  have one (message : String) : Emits (addDiagnostic message) (.ok [.report [message]]) :=
    of_run fun r => ⟨_, rfl⟩
  -- The diagnostics come one by one, which is the same as all at once.
  induction messages with
  | nil => exact congr skip fun b => by simp [Buffers.accept]
  | cons message messages ih =>
    exact congr (seq (one message) ih) fun b => by simp [Buffers.accept]

/-- An instruction line is added. -/
theorem addInstruction (line : String) :
    Emits (Program.addInstruction line) (.ok [.instruct line]) := by
  unfold Program.addInstruction
  by_cases h : line.isEmpty
  · rw [if_pos h]
    exact congr skip fun b => by simp [Buffers.accept, h]
  · rw [if_neg h]
    exact of_run fun r => ⟨r.events, by simp [Buffers.accept, h]; rfl⟩

/-- A registration, followed by a step that reports problems if the name is new and does nothing
if it is not, offers the declaration with these problems. -/
theorem register {name : Value} {d : Declared} {line : String} {problems : List String}
    {f : Bool → Emit Unit} (hnew : Emits (f true) (.ok [.report problems]))
    (hold : Emits (f false) (.ok [])) :
    Emits (do f (← Program.register name d line))
      (do return [.declare (← symbolKey name) d line problems]) := by
  intro r
  rw [Outcome.run_bind, Emit.run_register]
  cases symbolKey name with
  | error e => rfl
  | ok key =>
    simp only [bind, Except.bind, pure, Except.pure, Buffers.acceptAll_cons, Buffers.acceptAll_nil,
      Buffers.accept]
    by_cases h : r.buffers.declares key
    · -- The name is taken: nothing is declared, and the problems go unreported.
      simp only [h, if_true]
      exact hold r
    · simp only [h]
      exact hnew { r with buffers := r.buffers.declare key d line }

/-- A registration alone offers the declaration without problems. -/
theorem register_only (name : Value) (d : Declared) (line : String) :
    Emits (do let _ ← Program.register name d line)
      (do return [.declare (← symbolKey name) d line []]) :=
  register (congr skip fun b => by simp [Buffers.accept]) skip

end Emits

end Program

end RobotProgram
