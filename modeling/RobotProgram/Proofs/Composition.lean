import RobotProgram.Proofs.Lines

/-!
# Programs compose

Generation shares one symbol table among all actions, and yet a program is composed of those of its
parts: `generate_append` says that the program of two lists of actions has the instructions of the
first, then those of the second, and the symbols and lines of the first, then those of the second
whose names the first does not take.

The offers of the second list are the same whichever buffers accept them, so the proof follows them
through two runs at once: one from empty buffers and one from those that the first list leaves.
`Extends` relates the two, and every offer preserves it.
-/

namespace RobotProgram.Program

/-- The instruction lines that an offer adds. -/
def Offer.lines : Offer → List String
  | .instruct line => if line.isEmpty then [] else [line]
  | _ => []

namespace Buffers

/-- The symbols with their lines. -/
def table (b : Buffers) : List ((Atom × Declared) × String) := b.symbols.zip b.declarations

/-- The first column of the table has the symbols. -/
theorem Aligned.map_fst_table {b : Buffers} (hb : b.Aligned) :
    b.table.map Prod.fst = b.symbols :=
  hb.map_fst_zip

/-- The second column of the table has the declarations. -/
theorem Aligned.map_snd_table {b : Buffers} (hb : b.Aligned) :
    b.table.map Prod.snd = b.declarations :=
  List.map_snd_zip (Nat.le_of_eq hb.symm)

/-- Buffers with the same declarations have the same table. -/
theorem SameTable.table {b b' : Buffers} (h : b.SameTable b') : b.table = b'.table := by
  unfold Buffers.table
  rw [h.1, h.2]

/-- Buffers with the same declarations declare the same names. -/
theorem SameTable.declares {b b' : Buffers} (h : b.SameTable b') (key : Atom) :
    b.declares key = b'.declares key := by
  simp [Buffers.declares, h.1]

/-- What an offer does to the table: nothing, or it adds a row under a name that is not taken. -/
theorem table_accept {b : Buffers} {o : Offer} (hb : b.Aligned) (ho : o.Worded) :
    (b.accept o).table = match o with
      | .declare key d line _ =>
        if b.declares key then b.table else b.table ++ [((key, d), line)]
      | _ => b.table := by
  cases o with
  | declare key d line problems =>
    have hline : line.isEmpty = false := ho
    by_cases hkey : b.declares key
    · simp [accept, hkey]
    · simp [accept, hkey, declare, hline, table, List.zip_append hb]
  | report problems => rfl
  | instruct line => by_cases hline : line.isEmpty <;> simp [accept, hline, table]

/-- A name is taken when a row is found under it. -/
theorem Aligned.declares_eq {b : Buffers} (hb : b.Aligned) (key : Atom) :
    b.declares key = b.table.any fun row => row.1.1.finds key := by
  rw [declares, ← hb.map_fst_table, List.any_map]
  rfl

/-- The buffers `d` hold what `b` does, then the rows of `c` whose names `b` does not take. -/
structure Extends (b c d : Buffers) : Prop where
  aligned : c.Aligned
  alignedBoth : d.Aligned
  table : d.table = b.table ++ c.table.filter fun row => !b.declares row.1.1

/-- A name is taken in extended buffers when it is taken in those before or in those added: a row
that is left out for its name is found under another one. -/
theorem Extends.declares {b c d : Buffers} (hb : b.Aligned) (h : Extends b c d) (key : Atom) :
    d.declares key = (b.declares key || c.declares key) := by
  rw [h.alignedBoth.declares_eq, h.table, List.any_append, ← hb.declares_eq]
  cases hkey : b.declares key with
  | true => rfl
  | false =>
    rw [h.aligned.declares_eq, List.any_filter, Bool.false_or, Bool.false_or]
    congr 1
    funext row
    -- A row found under the name is kept, or else the name would be taken.
    by_cases hrow : row.1.1.finds key
    · have hkept : b.declares row.1.1 = false := by
        refine declares_eq_false.mpr fun s hs => ?_
        have hs' : s.1.finds key = false := declares_eq_false.mp hkey s hs
        by_contra hfinds
        rw [Atom.finds_trans (by simpa using hfinds) hrow] at hs'
        cases hs'
      simp [hkept]
    · simp [hrow]

/-- An offer that both runs accept in the same way, or the one from empty buffers alone. -/
theorem Extends.accept {b c d : Buffers} {o : Offer} (hb : b.Aligned) (h : Extends b c d)
    (ho : o.Worded) : Extends b (c.accept o) (d.accept o) := by
  refine ⟨h.aligned.accept ho, h.alignedBoth.accept ho, ?_⟩
  rw [table_accept h.alignedBoth ho, table_accept h.aligned ho]
  cases o with
  | report problems => exact h.table
  | instruct line => exact h.table
  | declare key e line problems =>
    simp only [h.declares hb]
    by_cases hc : c.declares key
    · simp [hc, h.table]
    · by_cases hkey : b.declares key
      · -- The row is added to `c` alone, and left out for its name.
        simp [hc, hkey, h.table]
      · simp [hc, hkey, h.table]

/-- Offers that are made to empty buffers and to others extend these by the same rows. -/
theorem extends_acceptAll {b : Buffers} (hb : b.Aligned) {os : List Offer}
    (hos : ∀ o ∈ os, o.Worded) : Extends b (Buffers.acceptAll {} os) (b.acceptAll os) := by
  have run {c d : Buffers} (h : Extends b c d) : Extends b (c.acceptAll os) (d.acceptAll os) := by
    induction os generalizing c d with
    | nil => exact h
    | cons o os ih =>
      rw [List.forall_mem_cons] at hos
      exact ih hos.2 (h.accept hb hos.1)
  exact run ⟨rfl, hb, by simp [table]⟩

/-- Instruction lines are added in order. -/
theorem instructions_acceptAll (b : Buffers) (os : List Offer) :
    (b.acceptAll os).instructions = b.instructions ++ os.flatMap Offer.lines := by
  induction os generalizing b with
  | nil => simp
  | cons o os ih =>
    rw [acceptAll_cons, ih, List.flatMap_cons, ← List.append_assoc]
    congr 1
    cases o with
    | declare key d line problems =>
      by_cases h : b.declares key <;> simp [accept, h, declare, Offer.lines]
    | report problems => simp [accept, Offer.lines]
    | instruct line => by_cases h : line.isEmpty <;> simp [accept, h, Offer.lines]

/-- The buffers `d` are composed of `b` and `c`: the instructions of both, and the symbols and lines
of `b`, then those of `c` whose names `b` does not take. -/
structure Composed (b c d : Buffers) : Prop where
  instructions : d.instructions = b.instructions ++ c.instructions
  symbols : d.symbols = b.symbols ++ c.symbols.filter fun s => !b.declares s.1
  declarations : d.declarations =
    b.declarations ++ (c.table.filter fun row => !b.declares row.1.1).map Prod.snd

/-- The buffers agree in what a program is made of. -/
structure SameProgram (b b' : Buffers) : Prop where
  symbols : b.symbols = b'.symbols
  declarations : b.declarations = b'.declarations
  instructions : b.instructions = b'.instructions

end Buffers

namespace Generator

open Kinematics (Resolver)

/-- The lines of buffers can be joined when the line ending is a text. -/
theorem texts_isOk_iff {g : Generator} {b : Buffers} :
    (∃ texts, g.texts b = .ok texts) ↔ ∃ ending, g.settings.lineBreak = .ok ending := by
  unfold texts joined
  cases g.settings.lineBreak with
  | error f => simp [bind, Except.bind]
  | ok ending => simp [bind, Except.bind, pure, Except.pure]

/-- Skipping an action gives no instruction. -/
theorem skipped_lines (p : Action × Nat) : ∀ o ∈ skipped p, o.lines = [] := by
  have hreport : Outcome.Gives (fun os : List Offer => ∀ o ∈ os, o.lines = [])
      (do return [.report [← skipMessage p.2 p.1]]) := by
    refine Outcome.Gives.bind fun message _ => ?_
    exact Outcome.Gives.ok (by simp [Offer.lines])
  unfold skipped
  cases p.1.passes with
  | true => simp
  | false => exact hreport.items (by simp)

/-- The items of a list are those of its elements that have some. -/
theorem flatMap_filter_of_nil {α β : Type} {f : α → List β} {p : α → Bool} {xs : List α}
    (h : ∀ x ∈ xs, p x = false → f x = []) : (xs.filter p).flatMap f = xs.flatMap f := by
  induction xs with
  | nil => rfl
  | cons x xs ih =>
    rw [List.forall_mem_cons] at h
    by_cases hx : p x
    · rw [List.filter_cons_of_pos hx, List.flatMap_cons, List.flatMap_cons, ih h.2]
    · rw [List.filter_cons_of_neg hx, List.flatMap_cons, ih h.2, h.1 (by simpa using hx),
        List.nil_append]

section

variable [Resolver] {g : Generator}

/-- Generation returns when every action can be handled and the line ending is a text, whatever was
run before. -/
theorem generate_isOk_iff {actions : List Action} (r₀ : Run) :
    (∃ texts r, (g.generate actions).run r₀ = (.ok texts, r)) ↔
      (∀ a ∈ actions, g.Emittable a) ∧ ∃ ending, g.settings.lineBreak = .ok ending := by
  have hrun := g.run_generate actions r₀
  constructor
  · rintro ⟨texts, r, h⟩
    obtain ⟨os, hprogram, -⟩ := generate_returns h
    rw [hprogram, h] at hrun
    exact ⟨(program_eq_ok.mp hprogram).1, texts_isOk_iff.mp ⟨texts, hrun.1.symm⟩⟩
  · rintro ⟨hemittable, hending⟩
    rw [program_eq_ok.mpr ⟨hemittable, rfl⟩] at hrun
    obtain ⟨texts, htexts⟩ := texts_isOk_iff.mpr hending
    exact ⟨texts, _, Prod.ext (hrun.1.trans htexts) rfl⟩

/-- The instruction lines of an action, none if it is skipped. -/
def instructionLines (g : Generator) (a : Action) : List String :=
  (g.instructed a).flatMap Offer.lines

/-- A returned program has the instruction lines of its actions, in order. -/
theorem generate_instructions {actions : List Action} {r₀ r : Run} {texts : String × String}
    (h : (g.generate actions).run r₀ = (.ok texts, r)) :
    r.buffers.instructions = actions.flatMap g.instructionLines := by
  obtain ⟨os, hprogram, hbuffers⟩ := generate_returns h
  obtain ⟨-, rfl⟩ := program_eq_ok.mp hprogram
  have hskipped : (actions.zipIdx.flatMap skipped).flatMap Offer.lines = [] := by
    simp only [List.flatMap_eq_nil_iff, List.mem_flatMap]
    rintro o ⟨p, -, ho⟩
    exact skipped_lines p o ho
  -- Declarations write declarations and diagnostics alone.
  have hdeclared : (actions.flatMap g.declared).flatMap Offer.lines = [] := by
    simp only [List.flatMap_eq_nil_iff, List.mem_flatMap]
    rintro o ⟨a, -, ho⟩
    have hwrites := writes_declared a o ho
    cases o with
    | declare key d line problems => rfl
    | report problems => rfl
    | instruct line => exact hwrites.elim
  rw [hbuffers, Buffers.instructions_acceptAll, List.flatMap_append, List.flatMap_append, hskipped,
    hdeclared, List.flatMap_assoc]
  rfl

/-- The table of the declarations of some actions is aligned. -/
theorem declaredBy_aligned (g : Generator) (actions : List Action) :
    (g.declaredBy actions).Aligned :=
  Buffers.Aligned.acceptAll rfl (worded_declared g actions)

/-- The declarations of two lists of actions extend those of the first by those of the second. -/
theorem declaredBy_append (g : Generator) (before after : List Action) :
    Buffers.Extends (g.declaredBy before) (g.declaredBy after)
      (g.declaredBy (before ++ after)) := by
  have hextends :=
    Buffers.extends_acceptAll (g.declaredBy_aligned before) (worded_declared g after)
  unfold declaredBy at hextends ⊢
  rwa [List.flatMap_append, Buffers.acceptAll_append]

/-- What some actions declare is taken after actions among which they all are. -/
theorem declares_of_subset {before after : List Action} (hsubset : after ⊆ before)
    {s : Atom × Declared} (hs : s ∈ (g.declaredBy after).symbols) :
    (g.declaredBy before).declares s.1 = true := by
  obtain ⟨i, hi⟩ := List.mem_iff_getElem?.mp hs
  obtain ⟨before', a, after', line, rfl, hfirst, -⟩ := exists_first_action hi
  obtain ⟨os, problems, rest, hoffers, -⟩ := hfirst.own
  have hdeclared : g.declared a = os ++ .declare s.1 s.2 line problems :: rest := by
    rw [declared, if_pos (Action.passes_eq_true.mpr hfirst.valid), hoffers]
    rfl
  -- The action that offers the name is among those before, so its offer was made there too.
  have hmem : .declare s.1 s.2 line problems ∈ before.flatMap g.declared := by
    refine List.mem_flatMap.mpr ⟨a, hsubset (by simp), ?_⟩
    rw [hdeclared]
    exact List.mem_append_right _ List.mem_cons_self
  obtain ⟨t, ht, hfinds⟩ := Buffers.holds_of_offered (b := {}) hmem rfl
  exact List.any_eq_true.mpr ⟨t, ht, hfinds⟩

/-- The program of two lists of actions is composed of their programs. -/
theorem composed_of_generate {before after : List Action} {r₀ r₁ r₂ r s t : Run}
    {texts texts₁ texts₂ : String × String}
    (h : (g.generate (before ++ after)).run r₀ = (.ok texts, r))
    (h₁ : (g.generate before).run r₁ = (.ok texts₁, s))
    (h₂ : (g.generate after).run r₂ = (.ok texts₂, t)) :
    Buffers.Composed s.buffers t.buffers r.buffers := by
  have hboth := generate_sameTable h
  have hbefore := generate_sameTable h₁
  have hafter := generate_sameTable h₂
  obtain ⟨haligned, hall, htable⟩ := g.declaredBy_append before after
  have hfirst := g.declaredBy_aligned before
  refine ⟨?_, ?_, ?_⟩
  · rw [generate_instructions h, generate_instructions h₁, generate_instructions h₂,
      List.flatMap_append]
  · have hsymbols := congrArg (List.map Prod.fst) htable
    rw [List.map_append] at hsymbols
    rw [hboth.1, hbefore.1, hafter.1, ← hall.map_fst_table, ← hfirst.map_fst_table,
      ← haligned.map_fst_table, List.filter_map, hsymbols]
    simp only [hbefore.declares]
    rfl
  · have hlines := congrArg (List.map Prod.snd) htable
    rw [List.map_append, hall.map_snd_table, hfirst.map_snd_table] at hlines
    rw [hboth.2, hbefore.2, hafter.table, hlines]
    simp only [hbefore.declares]

/-- Generation composes, whatever was run before. When the program of two lists of actions is
returned, so are those of the two lists and that of the valid actions alone; the program is composed
of those of the lists; a second list that only repeats actions of the first declares nothing more;
and the actions that are not valid change nothing but the diagnostics. -/
theorem generate_append {before after : List Action} {r₀ r : Run} {texts : String × String}
    (h : (g.generate (before ++ after)).run r₀ = (.ok texts, r)) (r₁ r₂ r₃ : Run) :
    ∃ texts₁ texts₂ texts₃ s t v,
      (g.generate before).run r₁ = (.ok texts₁, s) ∧
      (g.generate after).run r₂ = (.ok texts₂, t) ∧
      (g.generate ((before ++ after).filter Action.passes)).run r₃ = (.ok texts₃, v) ∧
      Buffers.Composed s.buffers t.buffers r.buffers ∧
      (after ⊆ before → r.buffers.SameTable s.buffers) ∧
      Buffers.SameProgram v.buffers r.buffers := by
  obtain ⟨hemittable, hending⟩ := (generate_isOk_iff r₀).mp ⟨texts, r, h⟩
  have hreturns {actions : List Action} (hactions : actions ⊆ before ++ after) (r' : Run) :
      ∃ texts' s, (g.generate actions).run r' = (.ok texts', s) :=
    (generate_isOk_iff r').mpr ⟨fun a ha => hemittable a (hactions ha), hending⟩
  obtain ⟨texts₁, s, h₁⟩ := hreturns (List.subset_append_left _ _) r₁
  obtain ⟨texts₂, t, h₂⟩ := hreturns (List.subset_append_right _ _) r₂
  obtain ⟨texts₃, v, h₃⟩ := hreturns (List.filter_sublist.subset) r₃
  have hcomposed := composed_of_generate h h₁ h₂
  refine ⟨texts₁, texts₂, texts₃, s, t, v, h₁, h₂, h₃, hcomposed, fun hsubset => ?_, ?_⟩
  · -- Every row of the second list is left out, for its name is taken.
    have htaken : ∀ symbol ∈ t.buffers.symbols, s.buffers.declares symbol.1 = true := by
      rw [(generate_sameTable h₂).1]
      intro symbol hsymbol
      rw [(generate_sameTable h₁).declares]
      exact declares_of_subset hsubset hsymbol
    have hsymbols := hcomposed.symbols
    have hlines := hcomposed.declarations
    rw [List.filter_eq_nil_iff.mpr (by simpa using htaken), List.append_nil] at hsymbols
    rw [List.filter_eq_nil_iff.mpr, List.map_nil, List.append_nil] at hlines
    · exact ⟨hsymbols, hlines⟩
    · intro row hrow
      simp [htaken row.1 (List.of_mem_zip hrow).1]
  · have hvalid : (g.declaredBy ((before ++ after).filter Action.passes)) =
        g.declaredBy (before ++ after) := by
      unfold declaredBy
      rw [flatMap_filter_of_nil fun a _ ha => by simp [declared, ha]]
    have htable := generate_sameTable h₃
    rw [hvalid] at htable
    obtain ⟨hsymbols, hlines⟩ := htable.trans (generate_sameTable h).symm
    refine ⟨hsymbols, hlines, ?_⟩
    rw [generate_instructions h₃, generate_instructions h,
      flatMap_filter_of_nil fun a _ ha => by simp [instructionLines, instructed, ha]]

end

/-- A wait that is not valid, then a movement whose destination is taken after `fixtureActions`,
then one to another target. -/
def furtherActions : List Action :=
  [.wait ⟨-1.0, false⟩,
    .movement (benchMovement .absoluteJoint .default) (some (.robotTarget (benchTarget "p10"))),
    .movement (benchMovement .linear fixture) (some (.robotTarget (benchTarget "p20")))]

/-- What a run that failed may leave behind. -/
def leftover : Run where
  buffers :=
    { symbols := [(.text "p20", .workObject .default)]
      instructions := ["MoveL"] }

/-- Of what the further actions declare, the destination and the work object that are there are left
out. -/
theorem generate_append_fixture :
    letI := turnsToPoint
    ∃ texts r, (bench.generate (fixtureActions ++ furtherActions)).run {} = (.ok texts, r) ∧
      r.buffers.symbols.map Prod.fst =
        [.text "p10", .text "fixture", .text "p10_jt", .text "p20"] ∧
      ∃ texts₁ texts₂ texts₃ s t v,
        (bench.generate fixtureActions).run leftover = (.ok texts₁, s) ∧
        (bench.generate furtherActions).run leftover = (.ok texts₂, t) ∧
        (bench.generate ((fixtureActions ++ furtherActions).filter Action.passes)).run leftover =
          (.ok texts₃, v) ∧
        Buffers.Composed s.buffers t.buffers r.buffers ∧
        (furtherActions ⊆ fixtureActions → r.buffers.SameTable s.buffers) ∧
        Buffers.SameProgram v.buffers r.buffers := by
  let := turnsToPoint
  obtain ⟨texts, h⟩ := Outcome.run_of_isOk
    (x := bench.generate (fixtureActions ++ furtherActions)) (s := {}) (by decide +kernel)
  exact ⟨texts, _, h, by decide +kernel, generate_append h leftover leftover leftover⟩

end Generator

end RobotProgram.Program
