import RobotProgram.Proofs.Faults
import RobotProgram.Proofs.Migration

/-!
# What reading an action lets through

A value that is no action record is a fault of the record, whatever is wrong with it; what is let
through is a part that is no mapping, a number that is too large and a frame whose axes have no
direction. The type of a record is looked up, and named if there is none, before anything is
reported as a fault of the record; so a type that is a list or a mapping is let through as a value
of the wrong type, and a whole number of too many digits as a number that cannot be written
(`HasLongType`). A fault of a target's record is reported as it is: along a chain of movements
(`LeadsTo`) every one has the fault of the last target (`LeadsTo.ofRecord_eq_error`).
-/

namespace RobotProgram.Action

/-- The records that a movement's record leads to: itself, its target, the target of that one, and
so on, where the version of each movement on the way can be read. -/
inductive LeadsTo : Value → Value → Prop
  | here (v : Value) : LeadsTo v v
  | target {es : List (Atom × Value)} {version : Int} {target v : Value}
    (type : field? "type" es = some (.text Movement.tag))
    (readable : Record.version Movement.tag es = .ok version)
    (field : field? "target" es = some target) (rest : LeadsTo target v) : LeadsTo (.map es) v

/-- A record with a type is read by its type. -/
theorem ofRecord_of_type {es : List (Atom × Value)} {tag : Value}
    (h : field? "type" es = some tag) :
    ofRecord (.map es) = ofEntries tag es fun _ => targetOfEntries es := by
  rw [ofRecord, fieldD, h]
  rfl

/-- A fault of its own record that the target of a movement has is the fault of the movement. -/
theorem ofRecord_of_target {es : List (Atom × Value)} {version : Int} {target : Value} {f : Fault}
    (htype : field? "type" es = some (.text Movement.tag))
    (hversion : Record.version Movement.tag es = .ok version)
    (htarget : field? "target" es = some target) (h : ofRecord target = .error f)
    (hkind : f.kind = .record) : ofRecord (.map es) = .error f := by
  have hentries : targetOfEntries es = .error f := by
    rw [targetOfEntries_eq, htarget]
    exact h
  have hmovement : movementOfEntries es (fun _ => targetOfEntries es) = .error f := by
    rw [movementOfEntries, hversion, Outcome.ok_bind, hentries]
    rfl
  have hkept : f.spoilsRecord = false := by rw [Fault.spoilsRecord, hkind]
  have hsimple : simpleOfRecord? Movement.tag (.map es) = none := rfl
  rw [ofRecord_of_type htype, ofEntries, hsimple]
  simp only [beq_self_eq_true, if_true]
  rw [hmovement, Record.wrap, hkept, if_neg Bool.false_ne_true]

/-- A fault of its own record passes unchanged along every chain of movements. -/
theorem LeadsTo.ofRecord_eq_error {v r : Value} {f : Fault} (h : LeadsTo v r)
    (hr : ofRecord r = .error f) (hkind : f.kind = .record) : ofRecord v = .error f := by
  induction h with
  | here v => exact hr
  | target htype hversion htarget _ ih =>
    exact ofRecord_of_target htype hversion htarget (ih hr) hkind

/-- A record whose type is a list or a mapping. -/
def HasContainerType (v : Value) : Prop :=
  ∃ es tag, v = .map es ∧ field? "type" es = some tag ∧ isContainer tag = true

/-- Such a record is not read at all. -/
theorem HasContainerType.ofRecord_eq_error {v : Value} (h : HasContainerType v) :
    ofRecord v = .error .wrongType := by
  obtain ⟨es, tag, rfl, htag, hcontainer⟩ := h
  rw [ofRecord_of_type htag]
  cases tag with
  | atom a => cases hcontainer
  | list _ | map _ => rfl

/-- A record whose type is a whole number of too many digits to be written. -/
def HasLongType (v : Value) : Prop :=
  ∃ es tag, v = .map es ∧ field? "type" es = some tag ∧ isContainer tag = false ∧
    tag.isShort = false

/-- Such a record is not read either: the fault that its type is unknown cannot be worded. -/
theorem HasLongType.ofRecord_eq_error {v : Value} (h : HasLongType v) :
    ofRecord v = .error .longNumber := by
  obtain ⟨es, tag, rfl, htag, hcontainer, hlong⟩ := h
  rw [ofRecord_of_type htag]
  exact ofEntries_of_not_isShort es _ hcontainer hlong

/-- Any other value lets through what a record of a known type does. -/
theorem kindsIn_ofRecord_of_not {v : Value} (hcontainer : ¬HasContainerType v)
    (hlong : ¬HasLongType v) : (ofRecord v).KindsIn decodedKinds := by
  cases v with
  | atom _ | list _ => exact Outcome.KindsIn.of_kind .record rfl (by decide)
  | map es =>
    have htarget := (kindsIn_targetOfEntries es).mono (show recordKinds ⊆ fieldKinds by decide)
    rw [ofRecord, fieldD]
    cases htype : field? "type" es with
    | none => exact kindsIn_ofEntries rfl rfl htarget
    | some tag =>
      have htag : isContainer tag = false :=
        Bool.eq_false_iff.mpr fun h => hcontainer ⟨es, tag, rfl, htype, h⟩
      have hshort : tag.isShort = true := by
        by_contra h
        exact hlong ⟨es, tag, rfl, htype, htag, Bool.eq_false_iff.mpr h⟩
      exact kindsIn_ofEntries htag hshort htarget

/-- Reading any value as an action gives the action, or a fault of the record, of a part that is no
mapping, of a division by zero or of a number that is too large. There are two exceptions, which
are exactly these: a record whose own type is a list or a mapping is a value of the wrong type, and
one whose own type is a whole number of too many digits is a number that cannot be written. A fault
of the record of a movement's target is the fault of the movement's record, however deep the target
is nested. -/
theorem reading_contained (v : Value) :
    (∀ f, ofRecord v = .error f →
      f.kind ∈ [.record, .part, .zeroDivision, .overflow] ∨ f.kind = .type ∧ HasContainerType v ∨
        f = .longNumber ∧ HasLongType v) ∧
    (HasContainerType v → ofRecord v = .error .wrongType) ∧
    (HasLongType v → ofRecord v = .error .longNumber) ∧
    ∀ r f, LeadsTo v r → ofRecord r = .error f → f.kind = .record →
      ofRecord v = .error f := by
  refine ⟨?_, fun h => h.ofRecord_eq_error, fun h => h.ofRecord_eq_error, fun r f h hr hkind =>
    h.ofRecord_eq_error hr hkind⟩
  intro f hf
  by_cases hcontainer : HasContainerType v
  · obtain rfl := Except.error.inj (hcontainer.ofRecord_eq_error.symm.trans hf)
    exact .inr (.inl ⟨rfl, hcontainer⟩)
  by_cases hlong : HasLongType v
  · obtain rfl := Except.error.inj (hlong.ofRecord_eq_error.symm.trans hf)
    exact .inr (.inr ⟨rfl, hlong⟩)
  have hkind := kindsIn_ofRecord_of_not hcontainer hlong f hf
  simp only [decodedKinds, List.mem_cons, List.not_mem_nil, or_false] at hkind ⊢
  tauto

/-- A movement to a movement to a wait without a version. -/
def stranded : Value :=
  .record [("type", .text "Movement"), ("version", .int 2001000), ("target",
    .record [("type", .text "Movement"), ("version", .int 103000), ("target",
      .record [("type", .text "WaitTime"), ("duration", .float 1.0)])])]

/-- A record whose type is the least number that is too long. -/
def numbered : Value := .record [("type", .int (Nat.pow 10 longestNumber))]

/-- Both movements have the fault of the wait, and the record with a number as type has none of its
own. -/
theorem reading_contained_stranded :
    (LeadsTo stranded (.record [("type", .text "WaitTime"), ("duration", .float 1.0)]) ∧
      ofRecord stranded = .error (.noVersion "WaitTime")) ∧
    HasLongType numbered ∧ ofRecord numbered = .error .longNumber := by
  have hleads : LeadsTo stranded (.record [("type", .text "WaitTime"), ("duration", .float 1.0)]) :=
    .target rfl rfl rfl (.target rfl rfl rfl (.here _))
  have hlong : HasLongType numbered := ⟨_, _, rfl, rfl, rfl, by decide +kernel⟩
  exact ⟨⟨hleads, (reading_contained stranded).2.2.2 _ _ hleads rfl rfl⟩, hlong,
    (reading_contained numbered).2.2.1 hlong⟩

end RobotProgram.Action
