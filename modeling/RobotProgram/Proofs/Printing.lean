import Mathlib.Data.List.Infix
import Mathlib.Data.List.TakeWhile
import RobotProgram.Command.Run
import RobotProgram.Proofs.Generation

/-!
# What an output shows

An output refuses a text with a character that it does not take (`Host.encoded_eq_ok`), and one that
shows no colours drops their codes. A text is shown as it is exactly when colours are, or when no
part of it is a code (`Host.echoed_eq_self`). A command line ends well if its reply is good and the
output takes all texts of the reply (`Command.exitStatus_run`).
-/

namespace RobotProgram

namespace Text

/-- Dropping the codes makes no characters. -/
theorem length_dropCodes (skip : Nat) (cs : List Char) :
    (dropCodes skip cs).length ≤ cs.length := by
  induction cs generalizing skip with
  | nil => simp [dropCodes]
  | cons c cs ih =>
    cases skip with
    | succ skip => exact Nat.le_succ_of_le (ih skip)
    | zero =>
      unfold dropCodes
      split
      · exact Nat.le_succ_of_le (ih _)
      · exact Nat.succ_le_succ (ih 0)

/-- Characters stay as they are when a code stands nowhere among them. -/
theorem dropCodes_eq_self {cs : List Char} :
    dropCodes 0 cs = cs ↔ ∀ ds, ds <:+ cs → colourCode? ds = none := by
  induction cs with
  | nil => simp [dropCodes, colourCode?]
  | cons c cs ih =>
    have hsuffix : (∀ ds, ds <:+ c :: cs → colourCode? ds = none) ↔
        colourCode? (c :: cs) = none ∧ ∀ ds, ds <:+ cs → colourCode? ds = none := by
      simp only [List.suffix_cons_iff, or_imp, forall_and, forall_eq]
    rw [hsuffix, ← ih, dropCodes]
    cases hcode : colourCode? (c :: cs) with
    | none => simp
    | some n =>
      -- A code is dropped, so the characters get fewer.
      have hlength := length_dropCodes (n - 1) cs
      refine iff_of_false (fun h => ?_) (fun h => Option.some_ne_none n h.1)
      have hsame : (dropCodes (n - 1) cs).length = (c :: cs).length := congrArg List.length h
      rw [List.length_cons] at hsame
      omega

/-- Whether a code of colours stands somewhere in a text. -/
def HasCode (s : String) : Prop := ∃ cs, cs <:+ s.toList ∧ colourCode? cs ≠ none

/-- A text without codes is the only one that stays as it is. -/
theorem uncoloured_eq_self {s : String} : uncoloured s = s ↔ ¬HasCode s := by
  have hcodes : ¬HasCode s ↔ ∀ cs, cs <:+ s.toList → colourCode? cs = none := by
    simp [HasCode]
  rw [hcodes, ← dropCodes_eq_self, uncoloured, ← String.toList_inj, String.toList_ofList]

end Text

namespace Host

/-- A text is encoded as it is if all of its characters are taken. -/
theorem encoded_eq_ok {takes : Char → Bool} {s t : String} :
    encoded takes s = .ok t ↔ t = s ∧ ∀ c ∈ s.toList, takes c = true := by
  unfold encoded
  rw [← List.dropWhile_eq_nil_iff]
  cases s.toList.dropWhile takes with
  | nil => simp [eq_comm]
  | cons c cs => simp

variable [Host]

/-- The output takes every character of a text. -/
def Takes (s : String) : Prop := ∀ c ∈ s.toList, outputTakes c = true

/-- A text is shown as it is if the output shows colours, or if it has no codes of colours. -/
theorem echoed_eq_self {s : String} :
    echoed s = s ↔ showsColours = true ∨ ¬Text.HasCode s := by
  unfold echoed
  cases showsColours with
  | true => simp
  | false => simp [Text.uncoloured_eq_self]

end Host

namespace Command

open Pipeline (Session)

/-- A command line ends well if it answers with a good reply. -/
theorem exitStatus_eq_zero {o : Outcome Reply} :
    exitStatus o = 0 ↔ ∃ r, o = .ok r ∧ r.status = 0 := by
  cases o with
  | error f => simp [exitStatus]
  | ok r => simp [exitStatus]

variable [Host]

/-- The output takes every text of a reply. -/
def Reply.Printed (r : Reply) : Prop := ∀ d ∈ r.output, ∀ s ∈ d.texts, Host.Takes s

/-- A reply that the output takes is printed, and any other one is a fault. -/
theorem Reply.print_eq_ok {r r' : Reply} : r.print = .ok r' ↔ r' = r ∧ r.Printed := by
  have hall (ss : List String) : (∃ ts, ss.mapM (Host.encoded Host.outputTakes) = .ok ts) ↔
      ∀ s ∈ ss, Host.Takes s := by
    -- By induction on the texts: the first one that is not taken is the fault.
    induction ss with
    | nil => exact iff_of_true ⟨[], rfl⟩ (by simp)
    | cons s ss ih =>
      rw [List.forall_mem_cons, ← ih, List.mapM_cons]
      constructor
      · rintro ⟨ts, h⟩
        obtain ⟨t, ht, h⟩ := Outcome.bind_eq_ok.mp h
        obtain ⟨us, hus, -⟩ := Outcome.bind_eq_ok.mp h
        exact ⟨(Host.encoded_eq_ok.mp ht).2, us, hus⟩
      · rintro ⟨hs, us, hus⟩
        rw [Host.encoded_eq_ok.mpr ⟨rfl, hs⟩, hus]
        exact ⟨s :: us, rfl⟩
  have hprinted : r.Printed ↔ ∀ s ∈ r.output.flatMap Display.texts, Host.Takes s := by
    simp only [Printed, List.mem_flatMap]
    constructor
    · rintro h s ⟨d, hd, hs⟩
      exact h d hd s hs
    · intro h d hd s hs
      exact h s ⟨d, hd, hs⟩
  unfold print
  rw [Outcome.bind_eq_ok, hprinted, ← hall]
  constructor
  · rintro ⟨ts, hts, h⟩
    exact ⟨(Outcome.pure_eq_ok.mp h).symm, ts, hts⟩
  · rintro ⟨rfl, ts, hts⟩
    exact ⟨ts, hts, rfl⟩

/-- A command line answers with the reply to it, if the output takes that. -/
theorem Invocation.run_eq_ok {i : Invocation} {s : Session} {r : Reply} :
    (i.run.run s).1 = .ok r ↔ (i.reply.run s).1 = .ok r ∧ r.Printed := by
  have hrun : (i.run.run s).1 = (i.reply.run s).1 >>= Reply.print := by
    unfold run
    rw [Outcome.run_bind]
    rcases i.reply.run s with ⟨f | r, s'⟩ <;> rfl
  rw [hrun, Outcome.bind_eq_ok]
  constructor
  · rintro ⟨r', hr', hprint⟩
    obtain ⟨rfl, hprinted⟩ := Reply.print_eq_ok.mp hprint
    exact ⟨hr', hprinted⟩
  · rintro ⟨hr, hprinted⟩
    exact ⟨r, hr, Reply.print_eq_ok.mpr ⟨rfl, hprinted⟩⟩

/-- A command line ends well if its reply is good and the output takes it. -/
theorem exitStatus_run (i : Invocation) (s : Session) :
    exitStatus (i.run.run s).1 = 0 ↔
      ∃ r, (i.reply.run s).1 = .ok r ∧ r.status = 0 ∧ r.Printed := by
  simp only [exitStatus_eq_zero, Invocation.run_eq_ok, and_assoc, and_comm (a := Reply.Printed _)]

end Command

end RobotProgram
