import RobotProgram.Pipeline.Run
import RobotProgram.Proofs.Generation

/-!
# Which faults reading can meet

A run reports its own faults and those of the file system, and lets every other one through.
`FaultsIn kinds` says of an outcome that its faults are reported or of certain kinds, and
`KindsIn kinds` that they are of these kinds. Both pass along binds (`Faults.bind`), so each reader
is taken apart once: one named fact for each part that it reads, then its steps in order.

The faults of plain data that a record wraps are its own. What is left of a record that cannot be
read is a part that is no mapping, a number that is too large, a frame whose axes have no direction,
and a type that cannot be looked up or named (`kindsIn_ofRecord`).
-/

namespace RobotProgram

open Pipeline (isReported)

/-- Only a text that is no document lacks one. -/
theorem Fault.eq_of_kind_document {f : Fault} (h : f.kind = .document) :
    f = .unreadableDocument := by
  cases f <;> cases h
  rfl

/-- Only settings that break rules are faults of settings. -/
theorem Fault.exists_of_kind_settings {f : Fault} (h : f.kind = .settings) :
    ∃ issues, f = .invalidSettings issues := by
  cases f <;> cases h
  exact ⟨_, rfl⟩

namespace Outcome

variable {α β : Type} {P : Fault → Prop} {kinds : List FaultKind}

/-- The faults of an outcome have a property. -/
def Faults (P : Fault → Prop) (o : Outcome α) : Prop := ∀ f, o = .error f → P f

/-- The faults of an outcome are of one of some kinds. -/
abbrev KindsIn (kinds : List FaultKind) (o : Outcome α) : Prop :=
  Faults (fun f => f.kind ∈ kinds) o

/-- The faults of an outcome are reported by a run, or of one of some kinds. -/
abbrev FaultsIn (kinds : List FaultKind) (o : Outcome α) : Prop :=
  Faults (fun f => isReported f = true ∨ f.kind ∈ kinds) o

namespace Faults

/-- A value is no fault. -/
theorem ok (a : α) : Faults P (.ok a : Outcome α) := by
  rintro f ⟨⟩

/-- A failure has its own fault. -/
theorem error {f : Fault} (h : P f) : Faults P (.error f : Outcome α) := by
  rintro _ ⟨⟩
  exact h

/-- Two computations in a row have the faults of both. -/
theorem bind {x : Outcome α} {f : α → Outcome β} (hx : x.Faults P)
    (hf : ∀ a, x = .ok a → (f a).Faults P) : Faults P (x >>= f) := by
  cases x with
  | error e =>
    rintro _ ⟨⟩
    exact hx e rfl
  | ok a => exact hf a rfl

/-- A changed result has the faults of the computation. -/
theorem map {x : Outcome α} (hx : x.Faults P) (f : α → β) : Faults P (f <$> x) :=
  bind hx fun a _ => ok (f a)

/-- What is done for every item of a list has the faults of the items. -/
theorem mapM {f : α → Outcome β} {xs : List α} (h : ∀ x ∈ xs, (f x).Faults P) :
    Faults P (xs.mapM f) := by
  induction xs with
  | nil => exact ok []
  | cons x xs ih =>
    rw [List.forall_mem_cons] at h
    rw [List.mapM_cons]
    refine bind h.1 fun y _ => ?_
    refine bind (ih h.2) fun ys _ => ?_
    exact ok (y :: ys)

/-- What is done for every item of a vector has the faults of the items. -/
theorem mapM_vector {n : Nat} {f : α → Outcome β} (h : ∀ x, (f x).Faults P)
    (v : Vector α n) : Faults P (v.mapM f) := by
  have hlist : Vector.toList <$> v.mapM f = v.toList.mapM f := by
    rw [Vector.toList, ← Array.toList_mapM, ← Vector.toArray_mapM, ← comp_map]
    rfl
  intro e he
  rw [he] at hlist
  exact mapM (fun x _ => h x) e hlist.symm

/-- A computation that is repeated has the faults of a step. -/
theorem foldlM {f : β → α → Outcome β} (h : ∀ b a, (f b a).Faults P) (xs : List α) (b : β) :
    Faults P (xs.foldlM f b) := by
  induction xs generalizing b with
  | nil => exact ok b
  | cons x xs ih =>
    rw [List.foldlM_cons]
    exact bind (h b x) fun b _ => ih b

/-- Faults that are reworded. -/
theorem mapError {Q : Fault → Prop} {o : Outcome α} {g : Fault → Fault} (h : o.Faults Q)
    (hg : ∀ f, Q f → P (g f)) : Faults P (Except.mapError g o : Outcome α) := by
  cases o with
  | error f =>
    rintro _ ⟨⟩
    exact hg f (h f rfl)
  | ok a => exact ok a

end Faults

/-- Faults of some kinds are of more kinds. -/
theorem KindsIn.mono {kinds' : List FaultKind} {o : Outcome α} (h : o.KindsIn kinds)
    (hsubset : kinds ⊆ kinds') : o.KindsIn kinds' :=
  fun f hf => hsubset (h f hf)

/-- A fault of a kind that is named. -/
theorem KindsIn.of_kind {f : Fault} (kind : FaultKind) (hkind : f.kind = kind) (h : kind ∈ kinds) :
    KindsIn kinds (.error f : Outcome α) :=
  .error (hkind ▸ h)

/-- Faults of some kinds are reported or of these kinds. -/
theorem KindsIn.faultsIn {kinds' : List FaultKind} {o : Outcome α} (h : o.KindsIn kinds)
    (hsubset : kinds ⊆ kinds') : o.FaultsIn kinds' :=
  fun f hf => .inr (hsubset (h f hf))

/-- Faults of records or of some kinds are reported or of these kinds. -/
theorem KindsIn.faultsIn_of_record {kinds' : List FaultKind} {o : Outcome α} (h : o.KindsIn kinds)
    (hsubset : kinds ⊆ .record :: kinds') : o.FaultsIn kinds' := by
  intro f hf
  obtain hkind | hkind := List.mem_cons.mp (hsubset (h f hf))
  · exact .inl (by rw [isReported, Fault.isOwn, hkind])
  · exact .inr hkind

/-- Faults that are reported or of some kinds are reported or of more kinds. -/
theorem FaultsIn.mono {kinds' : List FaultKind} {o : Outcome α} (h : o.FaultsIn kinds)
    (hsubset : kinds ⊆ kinds') : o.FaultsIn kinds' :=
  fun f hf => (h f hf).imp_right fun hkind => hsubset hkind

/-- A fault that is reported. -/
theorem FaultsIn.report {f : Fault} (h : isReported f = true) :
    FaultsIn kinds (.error f : Outcome α) :=
  .error (.inl h)

/-- A fault of a kind that is let through. -/
theorem FaultsIn.raise {f : Fault} (kind : FaultKind) (hkind : f.kind = kind) (h : kind ∈ kinds) :
    FaultsIn kinds (.error f : Outcome α) :=
  .error (.inr (hkind ▸ h))

end Outcome

open Outcome (Faults KindsIn FaultsIn)

/-! ### Plain data -/

/-- The kinds of faults that plain data meets where it is read. -/
def dataKinds : List FaultKind := [.type, .index, .value, .key, .part, .overflow, .zeroDivision]

namespace Value

/-- A value that is read as a number. -/
theorem kindsIn_number (v : Value) : v.number.KindsIn dataKinds := by
  unfold number
  split
  · exact Faults.ok _
  · split
    · exact Faults.ok _
    · exact Faults.error (by decide)
  · exact Faults.ok _
  · split
    · exact Faults.ok _
    · exact KindsIn.of_kind .value rfl (by decide)
  · exact Faults.error (by decide)

/-- A text that is read as a whole number is none, or has too many digits. -/
theorem kindsIn_integerOfText (s : String) : (integerOfText s).KindsIn [.value] := by
  unfold integerOfText
  split
  · dsimp only
    split_ifs
    · exact KindsIn.of_kind .value rfl (by decide)
    · exact Faults.ok _
  · exact KindsIn.of_kind .value rfl (by decide)

/-- A value that is read as a whole number. -/
theorem kindsIn_integer (v : Value) : v.integer.KindsIn dataKinds := by
  unfold integer
  split
  · exact Faults.ok _
  · exact Faults.ok _
  · split
    · exact Faults.error (by decide)
    · exact Faults.error (by decide)
    · exact Faults.ok _
  · exact (kindsIn_integerOfText _).mono (by decide)
  · exact Faults.error (by decide)

/-- A value that is written is short enough, or has a number of too many digits. -/
theorem kindsIn_written (v : Value) : v.written.KindsIn [.value] := by
  unfold written
  split_ifs
  · exact Faults.ok _
  · exact Faults.error (by decide)

/-- A value that is read as a list. -/
theorem kindsIn_parts (v : Value) : v.parts.KindsIn [.type] := by
  unfold parts
  split
  · exact Faults.ok _
  · exact Faults.ok _
  · exact Faults.ok _
  · exact Faults.error (by decide)

/-- A value that is read as a list of numbers. -/
theorem kindsIn_numbers (v : Value) : v.numbers.KindsIn dataKinds := by
  unfold numbers
  refine Faults.bind ((kindsIn_parts v).mono (by decide)) fun parts _ => ?_
  exact Faults.mapM fun x _ => kindsIn_number x

/-- A value that is read as a record. -/
theorem kindsIn_entries (v : Value) : v.entries.KindsIn [.part] := by
  unfold entries
  split
  · exact Faults.ok _
  · exact Faults.error (by decide)

end Value

/-! ### Geometry -/

/-- The kinds of faults of directions that have none. -/
def frameKinds : List FaultKind := [.overflow, .zeroDivision]

/-- A vector is normalised unless its length is zero or too large. -/
theorem Vector3.kindsIn_normalize (a : Vector3 Float) : a.normalize.KindsIn frameKinds := by
  unfold normalize
  split_ifs
  · exact Faults.error (by decide)
  · exact Faults.error (by decide)
  · exact Faults.ok _

/-- A vector has a unit vector unless its length is zero. -/
theorem Vector3.kindsIn_unit (a : Vector3 Float) : a.unit.KindsIn [.value] := by
  unfold unit
  split_ifs
  · exact Faults.error (by decide)
  · exact Faults.ok _

namespace Frame

/-- A frame whose x-axis is a unit vector. -/
theorem kindsIn_ofUnitAxis (point x y : Vector3 Float) :
    (ofUnitAxis point x y).KindsIn frameKinds := by
  unfold ofUnitAxis
  refine Faults.bind (Vector3.kindsIn_normalize y) fun y _ => ?_
  refine Faults.bind (Vector3.kindsIn_normalize _) fun z _ => ?_
  exact Faults.ok _

/-- A frame of two axes. -/
theorem kindsIn_ofAxes (point x y : Vector3 Float) : (ofAxes point x y).KindsIn frameKinds := by
  unfold ofAxes
  refine Faults.bind (Vector3.kindsIn_normalize x) fun x _ => ?_
  exact kindsIn_ofUnitAxis point x y

/-- A frame of one axis. -/
theorem kindsIn_ofAxis (point direction : Vector3 Float) :
    (ofAxis point direction).KindsIn [.value, .overflow, .zeroDivision] := by
  have hunit (a : Vector3 Float) : a.unit.KindsIn [.value, .overflow, .zeroDivision] :=
    (Vector3.kindsIn_unit a).mono (by decide)
  unfold ofAxis
  refine Faults.bind (hunit direction) fun z _ => ?_
  refine Faults.bind (hunit _) fun x _ => ?_
  exact (kindsIn_ofAxes point x _).mono (by decide)

end Frame

/-- A vector of two to four numbers. -/
theorem Vector3.kindsIn_ofValue (v : Value) : (Vector3.ofValue v).KindsIn dataKinds := by
  have hnumber (v : Value) : v.number.KindsIn dataKinds := v.kindsIn_number
  unfold ofValue
  refine Faults.bind ((Value.kindsIn_parts v).mono (by decide)) fun parts _ => ?_
  split
  · refine Faults.bind (hnumber _) fun x _ => ?_
    refine Faults.bind (hnumber _) fun y _ => ?_
    exact Faults.ok _
  · refine Faults.bind (hnumber _) fun x _ => ?_
    refine Faults.bind (hnumber _) fun y _ => ?_
    refine Faults.bind (hnumber _) fun z _ => ?_
    exact Faults.ok _
  · refine Faults.bind (hnumber _) fun x _ => ?_
    refine Faults.bind (hnumber _) fun y _ => ?_
    refine Faults.bind (hnumber _) fun z _ => ?_
    exact Faults.ok _
  · exact Faults.error (by decide)

/-- An axis that may be left out. -/
theorem kindsIn_axisOfValue (default : Vector3 Float) (v : Option Value) :
    (axisOfValue default v).KindsIn dataKinds := by
  unfold axisOfValue
  split
  · exact Faults.ok _
  · exact Faults.ok _
  · exact Vector3.kindsIn_ofValue _

/-- A frame of a record. -/
theorem Frame.kindsIn_ofValue (v : Value) : (Frame.ofValue v).KindsIn dataKinds := by
  -- The axes are read after the point, whether there is one or not.
  have hframe (es : List (Atom × Value)) (point : Vector3 Float) : KindsIn dataKinds (do
      let x ← axisOfValue .unitX (field? "xaxis" es)
      let x ← x.normalize
      let y ← axisOfValue .unitY (field? "yaxis" es)
      Frame.ofUnitAxis point x y) := by
    refine Faults.bind (kindsIn_axisOfValue _ _) fun x _ => ?_
    refine Faults.bind ((Vector3.kindsIn_normalize x).mono (by decide)) fun x _ => ?_
    refine Faults.bind (kindsIn_axisOfValue _ _) fun y _ => ?_
    exact (Frame.kindsIn_ofUnitAxis point x y).mono (by decide)
  unfold Frame.ofValue
  split_ifs
  · exact Faults.ok _
  · refine Faults.bind ((Value.kindsIn_entries v).mono (by decide)) fun es _ => ?_
    dsimp only
    split
    · exact Faults.bind (Faults.ok _) fun point _ => hframe es point
    · exact Faults.bind (Vector3.kindsIn_ofValue _) fun point _ => hframe es point

/-! ### Records -/

/-- The item of a list at an index. -/
theorem kindsIn_itemAt {α : Type} (xs : List α) (i : Int) : (itemAt xs i).KindsIn dataKinds := by
  unfold itemAt
  split
  · exact Faults.error (by decide)
  · split
    · split_ifs
      · exact Faults.ok _
      · exact Faults.error (by decide)
    · exact Faults.error (by decide)

/-- A storage class. -/
theorem Storage.kindsIn_ofValue (v : Value) : (Storage.ofValue v).KindsIn dataKinds := by
  unfold Storage.ofValue
  split
  · exact kindsIn_itemAt _ _
  · exact kindsIn_itemAt _ _
  · refine Faults.bind ((Value.kindsIn_written v).mono (by decide)) fun word _ => ?_
    dsimp only
    split
    · exact Faults.ok _
    · exact KindsIn.of_kind .value rfl (by decide)

/-- The kinds of faults that a record meets where it is read: its own, and those of plain data. -/
def fieldKinds : List FaultKind := .record :: dataKinds

/-- Faults of plain data are among those of a record. -/
theorem Outcome.KindsIn.field {α : Type} {o : Outcome α} (h : o.KindsIn dataKinds) :
    o.KindsIn fieldKinds :=
  h.mono (List.subset_cons_self _ _)

/-- The kinds of faults that a record of a known type lets through: its own, a part that is no
mapping, a number that is too large, and a frame whose axes have no direction. -/
def decodedKinds : List FaultKind := [.record, .part, .overflow, .zeroDivision]

namespace Record

/-- The version of a record is its own fault unless it is infinite. -/
theorem kindsIn_version (action : String) (es : List (Atom × Value)) :
    (version action es).KindsIn [.record, .overflow] := by
  unfold version
  split
  · exact KindsIn.of_kind .record rfl (by decide)
  · split
    · exact Faults.ok _
    · exact Faults.error (by decide)
    · exact KindsIn.of_kind .record rfl (by decide)

/-- A field that must be there. -/
theorem kindsIn_required (action key : String) (es : List (Atom × Value)) :
    (required action key es).KindsIn [.record] := by
  unfold required
  split
  · exact Faults.ok _
  · exact KindsIn.of_kind .record rfl (by decide)

/-- The storage class of a target's record. -/
theorem kindsIn_storage (version : Int) (es : List (Atom × Value)) :
    (storage version es).KindsIn dataKinds := by
  unfold storage
  dsimp only
  split
  · exact Storage.kindsIn_ofValue _
  · exact Faults.ok _

/-- A part that may be left out has the faults of its reader. -/
theorem kindsIn_part? {α : Type} {kinds : List FaultKind} {read : Value → Outcome α}
    (h : ∀ v, (read v).KindsIn kinds) (key : String) (es : List (Atom × Value)) :
    (part? read key es).KindsIn kinds := by
  unfold part?
  dsimp only
  split_ifs
  · exact Faults.map (h _) _
  · exact Faults.ok _

/-- What spoils a record is reported as a fault of it. -/
theorem kindsIn_wrap {α : Type} {action : String} {o : Outcome α} (h : o.KindsIn fieldKinds) :
    (wrap action o).KindsIn decodedKinds := by
  cases o with
  | ok a => exact Faults.ok a
  | error f =>
    refine Faults.error ?_
    by_cases hspoils : f.spoilsRecord
    · rw [if_pos hspoils]
      exact show .record ∈ decodedKinds by decide
    · rw [if_neg hspoils]
      have hkind := h f rfl
      -- The other kinds are those that spoil a record.
      unfold Fault.spoilsRecord at hspoils
      simp only [fieldKinds, dataKinds, List.mem_cons, List.not_mem_nil, or_false] at hkind
      obtain hkind | hkind | hkind | hkind | hkind | hkind | hkind | hkind := hkind <;>
        simp [hkind, decodedKinds] at hspoils ⊢

end Record

/-- The entries of a record, then its version. -/
theorem kindsIn_opened {α : Type} {action : String} {v : Value}
    {f : List (Atom × Value) → Int → Outcome α}
    (h : ∀ es version, (f es version).KindsIn fieldKinds) :
    KindsIn fieldKinds (do
      let es ← v.entries
      let version ← Record.version action es
      f es version) := by
  refine Faults.bind ((Value.kindsIn_entries v).mono (by decide)) fun es _ => ?_
  refine Faults.bind ((Record.kindsIn_version action es).mono (by decide)) fun version _ => ?_
  exact h es version

/-- A field that must be there, which is read. -/
theorem kindsIn_field {α : Type} {action key : String} {es : List (Atom × Value)}
    {read : Value → Outcome α} (h : ∀ v, (read v).KindsIn fieldKinds) :
    KindsIn fieldKinds (do read (← Record.required action key es)) := by
  refine Faults.bind ((Record.kindsIn_required action key es).mono (by decide)) fun v _ => ?_
  exact h v

/-- Joint values that are made of plain data. -/
theorem RobotJoints.kindsIn_make (values name storage : Value) :
    (RobotJoints.make values name storage).KindsIn dataKinds := by
  unfold RobotJoints.make
  refine Faults.bind (Value.kindsIn_numbers values) fun xs _ => ?_
  split_ifs
  · exact KindsIn.of_kind .value rfl (by decide)
  · refine Faults.bind (Storage.kindsIn_ofValue storage) fun storage _ => ?_
    exact Faults.ok _

/-- The record of joint values. -/
theorem RobotJoints.kindsIn_ofRecord (v : Value) :
    (RobotJoints.ofRecord v).KindsIn fieldKinds := by
  unfold RobotJoints.ofRecord
  refine kindsIn_opened fun es version => ?_
  refine kindsIn_field fun values => ?_
  exact (RobotJoints.kindsIn_make _ _ _).field

/-- A slot of external values, which may be undefined. -/
theorem ExternalJoints.kindsIn_slotOfValue (v : Value) :
    (slotOfValue v).KindsIn dataKinds := by
  unfold slotOfValue
  split
  · exact Faults.ok _
  · exact Faults.map (Value.kindsIn_number _) _

/-- External values that are made of plain data. -/
theorem ExternalJoints.kindsIn_make (values name storage : Value) :
    (ExternalJoints.make values name storage).KindsIn dataKinds := by
  unfold ExternalJoints.make
  refine Faults.bind ((Value.kindsIn_parts values).mono (by decide)) fun parts _ => ?_
  refine Faults.bind (Faults.mapM fun v _ => kindsIn_slotOfValue v) fun xs _ => ?_
  split_ifs
  · exact KindsIn.of_kind .value rfl (by decide)
  · refine Faults.bind (Storage.kindsIn_ofValue storage) fun storage _ => ?_
    exact Faults.ok _

/-- The record of external values. -/
theorem ExternalJoints.kindsIn_ofRecord (v : Value) :
    (ExternalJoints.ofRecord v).KindsIn fieldKinds := by
  unfold ExternalJoints.ofRecord
  refine kindsIn_opened fun es version => ?_
  refine kindsIn_field fun values => ?_
  exact (ExternalJoints.kindsIn_make _ _ _).field

/-- The record of a joint target. -/
theorem JointTarget.kindsIn_ofRecord (v : Value) :
    (JointTarget.ofRecord v).KindsIn fieldKinds := by
  have hexternal (es : List (Atom × Value)) :=
    Record.kindsIn_part? ExternalJoints.kindsIn_ofRecord "external_joint_position" es
  unfold JointTarget.ofRecord
  refine kindsIn_opened fun es version => ?_
  refine kindsIn_field fun robot => ?_
  refine Faults.bind (RobotJoints.kindsIn_ofRecord robot) fun robot _ => ?_
  refine Faults.bind (hexternal es) fun external _ => ?_
  refine Faults.bind (Record.kindsIn_storage version es).field fun storage _ => ?_
  exact Faults.ok _

/-- A robot target that is made of its parts. -/
theorem RobotTarget.kindsIn_make (name : Value) (frame : Frame Float) (config : Value)
    (external : ExternalJoints) (storage : Storage) :
    (RobotTarget.make name frame config external storage).KindsIn dataKinds := by
  unfold RobotTarget.make
  refine Faults.bind ((Frame.kindsIn_ofAxes _ _ _).mono (by decide)) fun frame _ => ?_
  refine Faults.bind (Value.kindsIn_integer config) fun config _ => ?_
  exact Faults.ok _

/-- The record of a robot target. -/
theorem RobotTarget.kindsIn_ofRecord (v : Value) :
    (RobotTarget.ofRecord v).KindsIn fieldKinds := by
  have hexternal (es : List (Atom × Value)) :=
    Record.kindsIn_part? ExternalJoints.kindsIn_ofRecord "external_joint_position" es
  unfold RobotTarget.ofRecord
  refine kindsIn_opened fun es version => ?_
  refine kindsIn_field fun frame => ?_
  refine Faults.bind (Frame.kindsIn_ofValue frame).field fun frame _ => ?_
  refine Faults.bind (hexternal es) fun external _ => ?_
  refine Faults.bind (Record.kindsIn_storage version es).field fun storage _ => ?_
  exact (RobotTarget.kindsIn_make _ _ _ _ _).field

/-- Speeds that are made of plain data. -/
theorem Speed.kindsIn_make (name tool turn linear rotational : Value) :
    (Speed.make name tool turn linear rotational).KindsIn dataKinds := by
  unfold Speed.make
  refine Faults.bind (Value.kindsIn_number tool) fun tool _ => ?_
  refine Faults.bind (Value.kindsIn_number turn) fun turn _ => ?_
  refine Faults.bind (Value.kindsIn_number linear) fun linear _ => ?_
  refine Faults.bind (Value.kindsIn_number rotational) fun rotational _ => ?_
  exact Faults.ok _

/-- The record of speeds. -/
theorem Speed.kindsIn_ofRecord (v : Value) : (Speed.ofRecord v).KindsIn fieldKinds := by
  unfold Speed.ofRecord
  refine kindsIn_opened fun es version => ?_
  refine kindsIn_field fun name => ?_
  refine kindsIn_field fun tool => ?_
  refine Faults.bind (Speed.kindsIn_make _ _ _ _ _).field fun speed _ => ?_
  exact Faults.ok _

/-- The record of a wait. -/
theorem Wait.kindsIn_ofRecord (v : Value) : (Wait.ofRecord v).KindsIn fieldKinds := by
  unfold Wait.ofRecord
  refine kindsIn_opened fun es version => ?_
  refine kindsIn_field fun duration => ?_
  refine Faults.bind (Value.kindsIn_number duration).field fun seconds _ => ?_
  exact Faults.ok _

/-- The record of an output. -/
theorem Output.kindsIn_ofRecord (v : Value) : (Output.ofRecord v).KindsIn fieldKinds := by
  unfold Output.ofRecord
  refine kindsIn_opened fun es version => ?_
  exact Faults.ok _

/-- The record of a tool. -/
theorem Tool.kindsIn_ofValue (v : Value) : (Tool.ofValue v).KindsIn dataKinds := by
  unfold Tool.ofValue
  refine Faults.bind ((Value.kindsIn_entries v).mono (by decide)) fun es _ => ?_
  refine Faults.bind (Frame.kindsIn_ofValue _) fun tip _ => ?_
  refine Faults.bind (Frame.kindsIn_ofValue _) fun mounting _ => ?_
  exact Faults.ok _

/-- The record of a work object. -/
theorem WorkObject.kindsIn_ofValue (v : Value) : (WorkObject.ofValue v).KindsIn dataKinds := by
  unfold WorkObject.ofValue
  refine Faults.bind ((Value.kindsIn_entries v).mono (by decide)) fun es _ => ?_
  refine Faults.bind (Frame.kindsIn_ofValue _) fun user _ => ?_
  refine Faults.bind (Frame.kindsIn_ofValue _) fun object _ => ?_
  exact Faults.ok _

/-- The type of a movement. -/
theorem MoveType.kindsIn_ofValue (v : Value) : (MoveType.ofValue v).KindsIn dataKinds := by
  unfold MoveType.ofValue
  split
  · dsimp only
    split
    · exact Faults.ok _
    · exact KindsIn.of_kind .key rfl (by decide)
  · refine Faults.bind (Value.kindsIn_integer _) fun n _ => ?_
    split
    · exact Faults.ok _
    · exact Faults.ok _

/-- A part that is missing. -/
theorem kindsIn_present {α : Type} (o : Option α) : (present o).KindsIn [.part] := by
  cases o with
  | none => exact Faults.error (by decide)
  | some a => exact Faults.ok a

namespace Action

/-- The global frame of a movement is composed of the frames of its work object and its target. -/
theorem kindsIn_recompute (m : Movement) (target : Option Action) :
    (recompute m target).KindsIn dataKinds := by
  have haxes (point x y : Vector3 Float) : (Frame.ofAxes point x y).KindsIn dataKinds :=
    (Frame.kindsIn_ofAxes point x y).mono (by decide)
  unfold recompute
  refine Faults.bind ?_ fun frame _ => Faults.ok _
  unfold globalFrame
  split
  · refine Faults.bind (haxes _ _ _) fun parent _ => ?_
    refine Faults.bind ((kindsIn_present _).mono (by decide)) fun frame _ => ?_
    refine Faults.bind (haxes _ _ _) fun frame _ => ?_
    exact Faults.ok _
  · exact Faults.ok _

/-- A movement that is made of its parts. -/
theorem kindsIn_makeMovement (target : Option Action) (speed : Option Speed)
    (kind precision : Value) (tool : Option (Tool Float)) (workObject : Option WorkObject)
    (output : Option Output) :
    (makeMovement target speed kind precision tool workObject output).KindsIn dataKinds := by
  unfold makeMovement
  refine Faults.bind ?_ fun speed _ => ?_
  · refine Faults.bind (Speed.kindsIn_make _ _ _ _ _) fun speed _ => ?_
    exact Faults.ok _
  refine Faults.bind (MoveType.kindsIn_ofValue kind) fun kind _ => ?_
  refine Faults.bind (Value.kindsIn_integer precision) fun precision _ => ?_
  exact kindsIn_recompute _ _

/-- A copy of an action is made anew of its parts. -/
theorem kindsIn_duplicate (a : Action) : a.duplicate.KindsIn dataKinds := by
  match a with
  | robotJoints p | externalJoints p | wait w | output o => exact Faults.ok _
  | jointTarget t => exact Faults.ok _
  | robotTarget t =>
    refine Faults.map ?_ _
    unfold RobotTarget.duplicate
    dsimp only
    split
    · refine Faults.bind ((Frame.kindsIn_ofAxes _ _ _).mono (by decide)) fun frame _ => ?_
      exact Faults.ok _
    · exact Faults.ok _
  | speed s =>
    refine Faults.map (Faults.bind (Speed.kindsIn_make _ _ _ _ _) fun speed _ => ?_) _
    exact Faults.ok _
  | movement m none => exact kindsIn_makeMovement _ _ _ _ _ _ _
  | movement m (some target) =>
    refine Faults.bind (kindsIn_duplicate target) fun target _ => ?_
    exact kindsIn_makeMovement _ _ _ _ _ _ _

/-- The record of a movement has the faults of its parts and of its target. -/
theorem kindsIn_movementOfEntries {es : List (Atom × Value)} {target : Unit → Outcome Action}
    (htarget : (target ()).KindsIn fieldKinds) :
    (movementOfEntries es target).KindsIn fieldKinds := by
  have htool := Record.kindsIn_part? Tool.kindsIn_ofValue "robot_tool" es
  have hobject := Record.kindsIn_part? WorkObject.kindsIn_ofValue "work_object" es
  have houtput := Record.kindsIn_part? Output.kindsIn_ofRecord "digital_output" es
  unfold movementOfEntries
  refine Faults.bind ((Record.kindsIn_version _ es).mono (by decide)) fun version _ => ?_
  refine Faults.bind htarget fun target _ => ?_
  refine kindsIn_field fun speed => ?_
  refine Faults.bind (Speed.kindsIn_ofRecord speed) fun speed _ => ?_
  refine Faults.bind htool.field fun tool _ => ?_
  refine Faults.bind hobject.field fun workObject _ => ?_
  refine Faults.bind houtput fun output _ => ?_
  unfold moveTo
  refine Faults.bind ((kindsIn_duplicate target).field.map _) fun target _ => ?_
  exact (kindsIn_makeMovement _ _ _ _ _ _ _).field

/-- The record of an action that is no movement. -/
theorem kindsIn_simpleOfRecord {tag : String} {v : Value} {o : Outcome Action}
    (h : simpleOfRecord? tag v = some o) : o.KindsIn fieldKinds := by
  unfold simpleOfRecord? at h
  split_ifs at h <;> obtain rfl := Option.some.inj h
  · exact Faults.map (RobotJoints.kindsIn_ofRecord v) _
  · exact Faults.map (ExternalJoints.kindsIn_ofRecord v) _
  · exact Faults.map (JointTarget.kindsIn_ofRecord v) _
  · exact Faults.map (RobotTarget.kindsIn_ofRecord v) _
  · exact Faults.map (Speed.kindsIn_ofRecord v) _
  · exact Faults.map (Wait.kindsIn_ofRecord v) _
  · exact Faults.map (Output.kindsIn_ofRecord v) _

/-- A type that is a list or a mapping. -/
def isContainer : Value → Bool
  | .atom _ => false
  | .list _ | .map _ => true

/-- A type that there is not is a fault of the record, if it can be named. -/
theorem kind_unknownType {tag : Value} (h : tag.isShort = true) :
    (unknownType tag).kind = .record := by
  rw [unknownType, if_pos h]
  rfl

/-- A number that cannot be named as the type is a fault of plain data. -/
theorem unknownType_of_not_isShort {tag : Value} (h : tag.isShort = false) :
    unknownType tag = .longNumber := by
  rw [unknownType, if_neg (Bool.eq_false_iff.mp h)]

/-- A record whose type can be looked up and named lets through what a record of a known type
does. -/
theorem kindsIn_ofEntries {tag : Value} {es : List (Atom × Value)} {target : Unit → Outcome Action}
    (htag : isContainer tag = false) (hshort : tag.isShort = true)
    (htarget : (target ()).KindsIn fieldKinds) :
    (ofEntries tag es target).KindsIn decodedKinds := by
  have hunknown : KindsIn decodedKinds (.error (unknownType tag) : Outcome Action) :=
    .of_kind .record (kind_unknownType hshort) (by decide)
  unfold ofEntries
  split
  · cases htag
  · cases htag
  · split
    · rename_i hsimple
      exact Record.kindsIn_wrap (kindsIn_simpleOfRecord hsimple)
    · split_ifs
      · exact Record.kindsIn_wrap (kindsIn_movementOfEntries htarget)
      · exact hunknown
  · exact hunknown

/-- A record whose type is too long to be named is not read. -/
theorem ofEntries_of_not_isShort {tag : Value} (es : List (Atom × Value))
    (target : Unit → Outcome Action) (htag : isContainer tag = false)
    (hshort : tag.isShort = false) : ofEntries tag es target = .error .longNumber := by
  have hunknown := unknownType_of_not_isShort hshort
  unfold ofEntries
  split
  · cases htag
  · cases htag
  · cases hshort
  · rw [hunknown]

/-- The kinds of faults that a record lets through: those of a record of a known type, a type that
is a list or a mapping, and a number as type that is too long to be named. -/
def recordKinds : List FaultKind := .type :: .value :: decodedKinds

mutual

/-- What an action record lets through, however deep its targets are nested. -/
theorem kindsIn_ofRecord (v : Value) : (ofRecord v).KindsIn recordKinds := by
  cases v with
  | atom _ => exact KindsIn.of_kind .record rfl (by decide)
  | list _ => exact KindsIn.of_kind .record rfl (by decide)
  | map es =>
    have htarget := (kindsIn_targetOfEntries es).mono (show recordKinds ⊆ fieldKinds by decide)
    unfold ofRecord
    cases htag : fieldD "type" es .null with
    | atom a =>
      cases hshort : (Value.atom a).isShort with
      | true => exact (kindsIn_ofEntries rfl hshort htarget).mono (by decide)
      | false =>
        rw [ofEntries_of_not_isShort es _ rfl hshort]
        exact Faults.error (by decide)
    | list _ => exact Faults.error (by decide)
    | map _ => exact Faults.error (by decide)

/-- What the target of a movement's record lets through. -/
theorem kindsIn_targetOfEntries (es : List (Atom × Value)) :
    (targetOfEntries es).KindsIn recordKinds := by
  match es with
  | [] => exact KindsIn.of_kind .record rfl (by decide)
  | (key, v) :: es =>
    have hv := kindsIn_ofRecord v
    have hes := kindsIn_targetOfEntries es
    unfold targetOfEntries
    split_ifs
    · exact hv
    · exact hes

end

end Action

end RobotProgram
