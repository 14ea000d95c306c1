import RobotProgram.Proofs.Faults

/-!
# Which faults documents can meet

A document in a file may have no path, no file, no text, no tree or no value. Of the reader of
documents that a host has only the kinds of its faults are known (`Host.Lawful`); the reader of this
library has no others (`Document.kindsIn_read`), which follows from one lemma for each reading of a
scalar and an induction on the tree. An action file lets through what its document and its records
do (`ActionFile.faultsIn_load`).
-/

namespace RobotProgram

open Pipeline (isReported)
open Outcome (Faults KindsIn FaultsIn)

/-! ### Documents -/

namespace Document

/-- The kinds of faults of a text that is read as a document: it is none, or a part of it that looks
right has no value. -/
def textKinds : List FaultKind := [.document, .type, .index, .value, .key, .part, .overflow]

/-- What can be wrong with a text that is a document. -/
theorem fault_of_ne {f : Fault} {kinds : List FaultKind}
    (h : isReported f = true ∨ f.kind ∈ textKinds) (hdocument : f ≠ .unreadableDocument)
    (hkinds : textKinds.tail ⊆ kinds) : isReported f = true ∨ f.kind ∈ kinds := by
  refine h.imp_right fun hkind => hkinds ?_
  have hne : f.kind ≠ .document := fun hkind => hdocument (Fault.eq_of_kind_document hkind)
  exact List.mem_of_ne_of_mem hne hkind

/-- A sign before no text. -/
theorem kindsIn_signed (cs : List Char) : (signed cs).KindsIn textKinds := by
  unfold signed
  split_ifs
  · exact Faults.error (by decide)
  · exact Faults.ok _

/-- Digits of a base that is a power of two. -/
theorem kindsIn_inBase (base : Nat) (mark : Char) (cs : List Char) :
    (inBase base mark cs).KindsIn textKinds := by
  unfold inBase
  dsimp only
  split
  · exact Faults.ok _
  · exact KindsIn.of_kind .value rfl (by decide)

/-- A text that is read as a whole number without a sign. -/
theorem kindsIn_wholeOfText (cs : List Char) : (wholeOfText cs).KindsIn textKinds := by
  have htext (s : String) : (Value.integerOfText s).KindsIn textKinds :=
    (Value.kindsIn_integerOfText s).mono (by decide)
  unfold wholeOfText
  split
  · exact Faults.error (by decide)
  · exact Faults.ok _
  · exact kindsIn_inBase _ _ _
  · exact kindsIn_inBase _ _ _
  · exact kindsIn_inBase _ _ _
  · split_ifs
    · exact Faults.map (Faults.mapM fun p _ => htext _) _
    · exact htext _

/-- A text that is read as a whole number. -/
theorem kindsIn_wholeValue (s : String) : (wholeValue s).KindsIn textKinds := by
  unfold wholeValue
  refine Faults.bind (kindsIn_signed _) fun parts _ => ?_
  refine Faults.bind (kindsIn_wholeOfText _) fun n _ => ?_
  exact Faults.ok _

/-- A text that is read as a floating-point number without a sign. -/
theorem kindsIn_realOfText (cs : List Char) : (realOfText cs).KindsIn textKinds := by
  have hread (s : String) : (Value.text s).number.KindsIn textKinds := by
    unfold Value.number
    dsimp only
    split
    · exact Faults.ok _
    · exact KindsIn.of_kind .value rfl (by decide)
  unfold realOfText
  dsimp only
  split_ifs
  · exact Faults.ok _
  · exact Faults.ok _
  · exact Faults.map (Faults.mapM fun p _ => hread _) _
  · exact hread _

/-- A text that is read as a floating-point number. -/
theorem kindsIn_realValue (s : String) : (realValue s).KindsIn textKinds := by
  unfold realValue
  refine Faults.bind (kindsIn_signed _) fun parts _ => ?_
  refine Faults.bind (kindsIn_realOfText _) fun x _ => ?_
  exact Faults.ok _

/-- A day, or a day and a time, is one of the calendar or a fault of plain data. -/
theorem Stamp.kindsIn_value (s : Stamp) : s.value.KindsIn textKinds := by
  have hday : s.checkDay.KindsIn textKinds := by
    unfold checkDay
    split_ifs
    · exact KindsIn.of_kind .value rfl (by decide)
    · exact Faults.error (by decide)
    · exact Faults.error (by decide)
    · exact Faults.ok _
  have htime (c : Clock) : (checkTime c).KindsIn textKinds := by
    unfold checkTime
    split_ifs
    · exact Faults.error (by decide)
    · exact Faults.error (by decide)
    · exact Faults.error (by decide)
    · exact Faults.ok _
  have hzone (c : Clock) : (checkZone c).KindsIn textKinds := by
    unfold checkZone
    split
    · split_ifs
      · exact Faults.ok _
      · exact KindsIn.of_kind .value rfl (by decide)
    · exact Faults.ok _
  unfold value
  split
  · exact Faults.bind hday fun _ _ => Faults.ok _
  · refine Faults.bind (hzone _) fun _ _ => ?_
    refine Faults.bind hday fun _ _ => ?_
    refine Faults.bind (htime _) fun _ _ => ?_
    exact Faults.ok _

/-- A text without quotes. -/
theorem kindsIn_implicit (s : String) : (Implicit.value s).KindsIn textKinds := by
  unfold Implicit.value
  split
  · exact Faults.ok _
  · exact Faults.ok _
  · exact Faults.map (kindsIn_wholeValue s) _
  · exact Faults.map (kindsIn_realValue s) _
  · exact Stamp.kindsIn_value _
  · exact Faults.error (by decide)
  · exact Faults.error (by decide)
  · exact Faults.ok _

/-- A scalar, which may be marked. -/
theorem kindsIn_scalarValue (reading : Reading) (s : String) :
    (scalarValue reading s).KindsIn textKinds := by
  unfold scalarValue
  split
  · exact kindsIn_implicit s
  · exact Faults.ok _
  · exact Faults.map (kindsIn_wholeValue s) _
  · exact Faults.map (kindsIn_realValue s) _
  · split
    · exact Faults.ok _
    · exact KindsIn.of_kind .key rfl (by decide)

/-- A tree that is read as a key. -/
theorem kindsIn_keyValue (t : Tree) : t.keyValue.KindsIn textKinds := by
  unfold Tree.keyValue
  split
  · unfold keyValue
    split
    · exact Faults.ok _
    · exact kindsIn_implicit _
  · exact kindsIn_scalarValue _ _
  · exact Faults.error (by decide)
  · exact Faults.error (by decide)
  · exact Faults.error (by decide)

/-- A key is an atom. -/
theorem kindsIn_keyOf (v : Value) : (keyOf v).KindsIn textKinds := by
  unfold keyOf
  split
  · exact Faults.ok _
  · exact Faults.error (by decide)

/-- The value of a merge key is a mapping, or a list of mappings. -/
theorem kindsIn_mergedEntries (v : Value) : (mergedEntries v).KindsIn textKinds := by
  have hone (v : Value) : (mergeable v).KindsIn textKinds := by
    unfold mergeable
    split
    · exact Faults.ok _
    · exact Faults.error (by decide)
  unfold mergedEntries
  split
  · refine Faults.bind (Faults.mapM fun v _ => hone v) fun merged _ => ?_
    exact Faults.ok _
  · exact hone _

-- By induction on the tree: a fault is one of a scalar, of a key or of the tag of a part, or it is
-- one that a part further down has.
mutual

/-- The value of a tree. -/
theorem kindsIn_value (t : Tree) : t.value.KindsIn textKinds := by
  match t with
  | .scalar reading s =>
    unfold Tree.value
    exact kindsIn_scalarValue reading s
  | .list ts =>
    have hts := kindsIn_itemValues ts
    unfold Tree.value
    exact Faults.bind hts fun vs _ => Faults.ok _
  | .map es =>
    have hes := kindsIn_entryValues es
    unfold Tree.value
    exact Faults.bind hes fun es _ => Faults.ok _
  | .mistagged =>
    unfold Tree.value
    exact Faults.error (by decide)

/-- The values of the items of a list. -/
theorem kindsIn_itemValues (ts : List Tree) : (itemValues ts).KindsIn textKinds := by
  match ts with
  | [] =>
    unfold itemValues
    exact Faults.ok _
  | t :: ts =>
    have ht := kindsIn_value t
    have hts := kindsIn_itemValues ts
    unfold itemValues
    refine Faults.bind ht fun v _ => ?_
    exact Faults.bind hts fun vs _ => Faults.ok _

/-- The entries of a mapping. -/
theorem kindsIn_entryValues (es : List (Tree × Tree)) : (entryValues es).KindsIn textKinds := by
  match es with
  | [] =>
    unfold entryValues
    exact Faults.ok _
  | e :: es =>
    have he := kindsIn_entryValue e
    have hes := kindsIn_entryValues es
    unfold entryValues
    refine Faults.bind he fun e _ => ?_
    exact Faults.bind hes fun es _ => Faults.ok _

/-- An entry of a mapping. -/
theorem kindsIn_entryValue (e : Tree × Tree) : (entryValue e).KindsIn textKinds := by
  match e with
  | (k, v) =>
    have hv := kindsIn_value v
    unfold entryValue
    split_ifs
    · refine Faults.bind hv fun value _ => ?_
      exact Faults.bind (kindsIn_mergedEntries value) fun merged _ => Faults.ok _
    · refine Faults.bind (kindsIn_keyValue k) fun key _ => ?_
      refine Faults.bind (kindsIn_keyOf key) fun key _ => ?_
      exact Faults.bind hv fun value _ => Faults.ok _

end

/-- A text is read as a document, or what is wrong with it is of one of these kinds. -/
theorem kindsIn_read (s : String) : (read s).KindsIn textKinds := by
  have hstop (stop : Stop) : stop.fault.kind ∈ textKinds := by
    cases stop with
    | malformed => decide
    | code n =>
      rw [Stop.fault]
      split_ifs <;> decide
  unfold read
  split
  · exact kindsIn_value _
  · exact Faults.error (hstop _)

end Document

/-! ### Hosts -/

/-- What is known of a host: the faults of its reader of documents are those of texts. -/
class Host.Lawful [Host] : Prop where
  kindsIn_document (s : String) : (Host.document s).KindsIn Document.textKinds

/-- A host with the reader of this library. -/
theorem Host.lawful_of_document_eq [Host] (h : Host.document = Document.read) : Host.Lawful where
  kindsIn_document s := by
    rw [h]
    exact Document.kindsIn_read s

instance : Host.Lawful := Host.lawful_of_document_eq rfl

/-- A text is encoded unless a character of it is not taken. -/
theorem Host.kindsIn_encoded (takes : Char → Bool) (s : String) :
    (encoded takes s).KindsIn [.value] := by
  unfold encoded
  dsimp only
  split
  · exact Faults.ok _
  · exact KindsIn.of_kind .value rfl (by decide)

namespace Files

/-- A path with a character that no path has is a fault of plain data. -/
theorem Path.kindsIn_whole (p : Path) : p.whole.KindsIn [.value] := by
  unfold Path.whole
  refine Faults.bind (Host.kindsIn_encoded _ _) fun text _ => ?_
  split_ifs
  · exact Faults.error (by decide)
  · exact Faults.ok _

variable [Host] [Host.Lawful]

/-- The document at a path is read, or a fault of the file system is reported, or the path, the
bytes or the text of the file are at fault. -/
theorem Store.faultsIn_value (s : Store) (p : Path) :
    (s.value p).FaultsIn Document.textKinds := by
  have hnode (node : Node) : node.value.KindsIn Document.textKinds := by
    unfold Node.value
    split
    · exact Host.Lawful.kindsIn_document _
    · exact Faults.ok _
    · exact Faults.error (by decide)
    · exact Faults.error (by decide)
  unfold Store.value
  refine Faults.bind ((Path.kindsIn_whole p).faultsIn (by decide)) fun _ _ => ?_
  split
  · exact (hnode _).faultsIn (List.Subset.refl _)
  · exact FaultsIn.report rfl

end Files

/-! ### Action files -/

/-- The kinds of faults that an action file lets through. -/
def ActionFile.loadKinds : List FaultKind :=
  [.type, .index, .value, .key, .part, .overflow, .zeroDivision]

/-- What an action file lets through: what its document does, unless it is none, and what its
records do. -/
theorem ActionFile.faultsIn_load [Host] [Host.Lawful] (s : Files.Store) (path : Files.Path) :
    (load s path).FaultsIn loadKinds := by
  have hvalue : Faults (fun f => isReported f = true ∨ f.kind ∈ loadKinds)
      ((s.value path).mapError (unreadable path)) := by
    refine Faults.mapError (s.faultsIn_value path) fun f h => ?_
    -- A file that is not there and a text that is no document are reported.
    unfold unreadable
    split
    · exact .inl rfl
    · exact .inl rfl
    · rename_i hdocument
      exact Document.fault_of_ne h hdocument (by decide)
  have hrecords (v : Value) : (records path v).FaultsIn loadKinds := by
    unfold records
    dsimp only
    split
    · exact Faults.ok _
    · exact FaultsIn.report rfl
  unfold load
  refine Faults.bind hvalue fun v _ => ?_
  refine Faults.bind (hrecords v) fun rs _ => ?_
  exact Faults.mapM fun r _ => (Action.kindsIn_ofRecord r).faultsIn_of_record (by decide)

end RobotProgram
