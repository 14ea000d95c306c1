import Mathlib.Data.List.Induction
import RobotProgram.Proofs.Equality
import RobotProgram.Proofs.Generation

/-!
# The symbol table of a program

The first declaration of a name stays: `lineOf_acceptAll_declare` follows the line of a name through
the offers of a program, and `exists_offer_of_symbol` finds the offer that a symbol comes from, with
what was there before it. Offers that declare nothing without a line (`Offer.Worded`) keep symbols
and lines at the same places.
-/

namespace RobotProgram

namespace Program

/-- Names are atoms that count as true, and their own keys. -/
theorem symbolKey_eq_ok {name : Value} {key : Atom} :
    symbolKey name = .ok key ↔ name.truthy = true ∧ name = .atom key := by
  unfold symbolKey
  cases name.truthy with
  | false => simp
  | true => cases name <;> simp

/-- The offer declares something under a key. -/
def Offer.Declares (key : Atom) : Offer → Prop
  | .declare k .. => k = key
  | _ => False

/-- The offer has a line if it declares something. -/
def Offer.Worded : Offer → Prop
  | .declare _ _ line _ => line.isEmpty = false
  | _ => True

namespace Buffers

/-- The line that is declared under a key. -/
def lineOf (b : Buffers) (key : Atom) : Option String :=
  ((b.symbols.zip b.declarations).find? fun s => s.1.1.finds key).map (·.2)

/-- Something is declared under a key. -/
def Holds (b : Buffers) (key : Atom) : Prop := ∃ s ∈ b.symbols, s.1.finds key = true

/-- Every symbol has a line. -/
def Aligned (b : Buffers) : Prop := b.symbols.length = b.declarations.length

/-- The buffers have the same declarations. -/
def SameTable (b b' : Buffers) : Prop :=
  b.symbols = b'.symbols ∧ b.declarations = b'.declarations

/-- Buffers with the same declarations have the same lines for a name. -/
theorem SameTable.lineOf {b b' : Buffers} (h : b.SameTable b') (key : Atom) :
    b.lineOf key = b'.lineOf key := by
  unfold Buffers.lineOf
  rw [h.1, h.2]

/-! ### One offer -/

/-- What an offer does to symbols and lines: nothing, or it declares a new name. -/
theorem accept_cases (b : Buffers) (o : Offer) :
    ((b.accept o).symbols = b.symbols ∧ (b.accept o).declarations = b.declarations) ∨
      ∃ key d line problems, o = .declare key d line problems ∧ b.declares key = false ∧
        b.accept o = { b.declare key d line with errors := b.errors ++ problems } := by
  cases o with
  | declare key d line problems =>
    by_cases h : b.declares key
    · exact .inl (by simp [accept, h])
    · exact .inr ⟨key, d, line, problems, rfl, by simpa using h, by simp [accept, h]⟩
  | report problems => exact .inl ⟨rfl, rfl⟩
  | instruct line => by_cases h : line.isEmpty <;> exact .inl (by simp [accept, h])

/-- An offer does the same to buffers with the same declarations. -/
theorem SameTable.accept {b b' : Buffers} (h : b.SameTable b') (o : Offer) :
    (b.accept o).SameTable (b'.accept o) := by
  obtain ⟨hsymbols, hlines⟩ := h
  cases o with
  | declare key d line problems =>
    have hdeclares : b.declares key = b'.declares key := by simp [declares, hsymbols]
    by_cases hkey : b'.declares key <;>
      simp [SameTable, Buffers.accept, hdeclares, hkey, declare, hsymbols, hlines]
  | report problems => exact ⟨hsymbols, hlines⟩
  | instruct line =>
    by_cases hline : line.isEmpty <;> simp [SameTable, Buffers.accept, hline, hsymbols, hlines]

/-- An offer with a line keeps symbols and lines at the same places. -/
theorem Aligned.accept {b : Buffers} {o : Offer} (hb : b.Aligned) (ho : o.Worded) :
    (b.accept o).Aligned := by
  unfold Aligned at hb ⊢
  obtain ⟨hsymbols, hlines⟩ | ⟨key, d, line, problems, rfl, -, haccept⟩ := b.accept_cases o
  · rw [hsymbols, hlines, hb]
  · have hline : line.isEmpty = false := ho
    rw [haccept]
    simp [declare, hline, hb]

/-- The symbols of aligned buffers are those that have a line. -/
theorem Aligned.map_fst_zip {b : Buffers} (hb : b.Aligned) :
    (b.symbols.zip b.declarations).map Prod.fst = b.symbols :=
  List.map_fst_zip (Nat.le_of_eq hb)

/-- A name that is declared has a line. -/
theorem holds_iff_lineOf {b : Buffers} (hb : b.Aligned) {key : Atom} :
    b.Holds key ↔ ∃ line, b.lineOf key = some line := by
  unfold Holds lineOf
  rw [← Option.isSome_iff_exists, Option.isSome_map, List.find?_isSome]
  nth_rewrite 1 [← hb.map_fst_zip]
  simp only [List.mem_map]
  constructor
  · rintro ⟨s, ⟨p, hp, rfl⟩, hs⟩
    exact ⟨p, hp, hs⟩
  · rintro ⟨p, hp, hs⟩
    exact ⟨p.1, ⟨p, hp, rfl⟩, hs⟩

/-- A name that is taken is declared. -/
theorem Holds.of_declares {b : Buffers} {key : Atom} (h : b.declares key = true) :
    b.Holds key := by
  obtain ⟨s, hs, hfinds⟩ := List.any_eq_true.mp h
  exact ⟨s, hs, hfinds⟩

/-- The line of a name after a declaration that is new: the one it had, or else the line that is
declared. -/
theorem lineOf_declare {b : Buffers} (hb : b.Aligned) {line : String}
    (hline : line.isEmpty = false) (key k : Atom) (d : Declared) :
    (b.declare key d line).lineOf k =
      (b.lineOf k).or (if key.finds k then some line else none) := by
  unfold lineOf declare
  simp only [hline, Bool.false_eq_true, if_false]
  rw [List.zip_append hb, List.find?_append, Option.map_or]
  by_cases hkey : key.finds k <;> simp [hkey]

/-- A line stays. -/
theorem lineOf_accept_of_some {b : Buffers} {o : Offer} (hb : b.Aligned) (ho : o.Worded)
    {key : Atom} {line : String} (h : b.lineOf key = some line) :
    (b.accept o).lineOf key = some line := by
  obtain ⟨hsymbols, hlines⟩ | ⟨k, d, l, problems, rfl, -, haccept⟩ := b.accept_cases o
  · unfold lineOf at h ⊢
    rw [hsymbols, hlines, h]
  · rw [haccept]
    change (b.declare k d l).lineOf key = _
    rw [lineOf_declare hb ho, h]
    rfl

/-- A declared name has the line that it had, or else the line of the declaration. -/
theorem lineOf_accept_declare {b : Buffers} {key : Atom} {d : Declared} {line : String}
    {problems : List String} (hb : b.Aligned) (hline : line.isEmpty = false) :
    (b.accept (.declare key d line problems)).lineOf key = (b.lineOf key).or (some line) := by
  by_cases h : b.declares key
  · -- A name that is taken has a line already.
    obtain ⟨other, hother⟩ := (holds_iff_lineOf hb).mp (.of_declares h)
    simp [accept, h, hother]
  · simp only [accept, h]
    change (b.declare key d line).lineOf key = _
    rw [lineOf_declare hb hline, Atom.finds_self, if_pos rfl]

/-! ### Offers in order -/

/-- Offers in a row keep symbols and lines aligned. -/
theorem Aligned.acceptAll {b : Buffers} {os : List Offer} (hb : b.Aligned)
    (hos : ∀ o ∈ os, o.Worded) : (b.acceptAll os).Aligned := by
  induction os generalizing b with
  | nil => exact hb
  | cons o os ih =>
    rw [List.forall_mem_cons] at hos
    exact ih (hb.accept hos.1) hos.2

/-- A line stays through all offers. -/
theorem lineOf_acceptAll_of_some {b : Buffers} {os : List Offer} (hb : b.Aligned)
    (hos : ∀ o ∈ os, o.Worded) {key : Atom} {line : String} (h : b.lineOf key = some line) :
    (b.acceptAll os).lineOf key = some line := by
  induction os generalizing b with
  | nil => exact h
  | cons o os ih =>
    rw [List.forall_mem_cons] at hos
    exact ih (hb.accept hos.1) hos.2 (lineOf_accept_of_some hb hos.1 h)

/-- A name that is declared among the offers has in the end the line that it had just before, or
else the line of this declaration. -/
theorem lineOf_acceptAll_declare {before after : List Offer} {key : Atom} {d : Declared}
    {line : String} {problems : List String}
    (hos : ∀ o ∈ before ++ .declare key d line problems :: after, o.Worded) :
    (Buffers.acceptAll {} (before ++ .declare key d line problems :: after)).lineOf key =
      ((Buffers.acceptAll {} before).lineOf key).or (some line) := by
  simp only [List.forall_mem_append, List.forall_mem_cons] at hos
  obtain ⟨hbefore, hline, hafter⟩ := hos
  have hb : (Buffers.acceptAll {} before).Aligned := Aligned.acceptAll rfl hbefore
  rw [acceptAll_append, acceptAll_cons]
  -- There is a line after the declaration in any case, and it stays.
  obtain ⟨final, hfinal⟩ :
      ∃ final, ((Buffers.acceptAll {} before).lineOf key).or (some line) = some final := by
    cases (Buffers.acceptAll {} before).lineOf key <;> simp
  rw [hfinal]
  refine lineOf_acceptAll_of_some (hb.accept hline) hafter ?_
  rw [lineOf_accept_declare hb hline, hfinal]

/-- Symbols are added at the end. -/
theorem symbols_prefix_acceptAll (b : Buffers) (os : List Offer) :
    b.symbols <+: (b.acceptAll os).symbols := by
  induction os generalizing b with
  | nil => exact List.prefix_rfl
  | cons o os ih =>
    refine List.IsPrefix.trans ?_ (ih (b.accept o))
    obtain ⟨hsymbols, -⟩ | ⟨key, d, line, problems, -, -, haccept⟩ := b.accept_cases o
    · exact ⟨[], by rw [List.append_nil, hsymbols]⟩
    · rw [haccept]
      exact List.prefix_append _ _

/-- Offers that declare nothing keep the declarations. -/
theorem sameTable_acceptAll_of_forall {b : Buffers} {os : List Offer}
    (h : ∀ o ∈ os, ∀ key, ¬o.Declares key) : (b.acceptAll os).SameTable b := by
  induction os generalizing b with
  | nil => exact ⟨rfl, rfl⟩
  | cons o os ih =>
    rw [List.forall_mem_cons] at h
    obtain ⟨hsymbols, hlines⟩ := ih (b := b.accept o) h.2
    obtain ⟨hsymbols', hlines'⟩ | ⟨key, d, line, problems, rfl, -⟩ := b.accept_cases o
    · exact ⟨hsymbols.trans hsymbols', hlines.trans hlines'⟩
    · exact (h.1 key rfl).elim

/-- Offers do the same to buffers with the same declarations. -/
theorem SameTable.acceptAll {b b' : Buffers} (h : b.SameTable b') (os : List Offer) :
    (b.acceptAll os).SameTable (b'.acceptAll os) := by
  induction os generalizing b b' with
  | nil => exact h
  | cons o os ih => exact ih (h.accept o)

/-- A name that is offered is declared in the end. -/
theorem holds_of_offered {b : Buffers} {os : List Offer} {o : Offer} {key : Atom} (ho : o ∈ os)
    (hkey : o.Declares key) : (b.acceptAll os).Holds key := by
  obtain ⟨before, after, rfl⟩ := List.append_of_mem ho
  rw [acceptAll_append, acceptAll_cons]
  generalize b.acceptAll before = b'
  -- Right after the offer its name is declared, by it or by something before it.
  have hafter : (b'.accept o).Holds key := by
    cases o with
    | declare k d line problems =>
      obtain rfl : k = key := hkey
      by_cases h : b'.declares k
      · simpa [accept, h] using Holds.of_declares h
      · exact ⟨(k, d), by simp [accept, h, declare], k.finds_self⟩
    | report problems => exact hkey.elim
    | instruct line => exact hkey.elim
  obtain ⟨s, hs, hfinds⟩ := hafter
  exact ⟨s, (symbols_prefix_acceptAll _ after).subset hs, hfinds⟩

/-- A symbol comes from an offer, and stands behind the symbols of the offers before it. -/
theorem exists_offer_of_symbol {os : List Offer} {j : Nat} {key : Atom} {d : Declared}
    (h : (Buffers.acceptAll {} os).symbols[j]? = some (key, d)) :
    ∃ before line problems after, os = before ++ .declare key d line problems :: after ∧
      (Buffers.acceptAll {} before).symbols.length = j := by
  induction os using List.reverseRecOn with
  | nil => simp at h
  | append_singleton os o ih =>
    -- The last offer adds at most one symbol, at the end of those that are there.
    rw [acceptAll_append, acceptAll_cons, acceptAll_nil] at h
    have hearlier (hold : (Buffers.acceptAll {} os).symbols[j]? = some (key, d)) :
        ∃ before line problems after,
          os ++ [o] = before ++ .declare key d line problems :: after ∧
            (Buffers.acceptAll {} before).symbols.length = j := by
      obtain ⟨before, line, problems, after, rfl, hlength⟩ := ih hold
      exact ⟨before, line, problems, after ++ [o], by simp, hlength⟩
    obtain ⟨hsymbols, -⟩ | ⟨k, e, line, problems, rfl, -, haccept⟩ :=
      (Buffers.acceptAll {} os).accept_cases o
    · exact hearlier (hsymbols ▸ h)
    · simp only [haccept, declare] at h
      by_cases hj : j < (Buffers.acceptAll {} os).symbols.length
      · rw [List.getElem?_append_left hj] at h
        exact hearlier h
      · -- The symbol is the one that comes last.
        rw [List.getElem?_append_right (by omega), List.getElem?_singleton] at h
        split at h
        · obtain ⟨rfl, rfl⟩ := Prod.mk.inj (Option.some.inj h)
          exact ⟨os, line, problems, [], rfl, by omega⟩
        · cases h

end Buffers

namespace Generator

open Kinematics (Resolver)

/-- The buffers after the declarations of some actions. -/
def declaredBy [Resolver] (g : Generator) (actions : List Action) : Buffers :=
  Buffers.acceptAll {} (actions.flatMap g.declared)

/-- The buffers when the target of a movement is declared, after its speed and its work object. -/
def atTarget (b : Buffers) (m : Movement) : Buffers := b.acceptAll (partOffers m).items

/-- Skipping an action declares nothing. -/
theorem skipped_declares (p : Action × Nat) : ∀ o ∈ skipped p, ∀ key, ¬o.Declares key := by
  have hreport : Outcome.Gives (fun os : List Offer => ∀ o ∈ os, ∀ key, ¬o.Declares key)
      (do return [.report [← skipMessage p.2 p.1]]) := by
    refine Outcome.Gives.bind fun message _ => ?_
    exact Outcome.Gives.ok (by simp [Offer.Declares])
  unfold skipped
  cases p.1.passes with
  | true => simp
  | false => exact hreport.items (by simp)

/-- Declarations start from none, after the diagnostics of skipped actions too. -/
theorem sameTable_skipped (actions : List Action) :
    (Buffers.acceptAll {} (actions.zipIdx.flatMap skipped)).SameTable {} := by
  refine Buffers.sameTable_acceptAll_of_forall fun o ho => ?_
  obtain ⟨p, -, ho⟩ := List.mem_flatMap.mp ho
  exact skipped_declares p o ho

end Generator

end Program

end RobotProgram
