import Mathlib.Data.List.Basic
import Mathlib.Tactic.Common
import RobotProgram.Action.Decode

/-!
# Reading back the records of actions

Each kind of action is read back from its own record. Records have text keys, so a field is found by
comparing texts (`field?_cons`). A frame is read back when building it anew gives it again, which is
what is asked of every frame that an action holds.
-/

namespace RobotProgram

/-! ### Fields -/

/-- There is no field without entries. -/
@[simp]
theorem field?_nil (key : String) : field? key [] = none := rfl

/-- A field of a record is the first with its key. -/
@[simp]
theorem field?_cons (key k : String) (v : Value) (es : List (Atom × Value)) :
    field? key ((.text k, v) :: es) = if k = key then some v else field? key es := by
  unfold field? entry?
  by_cases h : k = key <;> simp [Atom.same, h]

/-- A floating-point number is read as a number. -/
theorem Value.number_float (x : Float) : number (.float x) = .ok x := rfl

/-- A whole number is read as one. -/
theorem Value.integer_int (n : Int) : integer (.int n) = .ok n := rfl

/-- A truth value counts as it is. -/
theorem Value.truthy_bool (b : Bool) : truthy (.bool b) = b := rfl

/-- The entries of a record: its type, the version, and its fields. -/
def Record.entriesOf (tag : String) (fields : List (String × Value)) : List (Atom × Value) :=
  (("type", .text tag) :: ("version", .int currentVersion) :: fields).map fun (k, v) =>
    (.text k, v)

/-- The entries of a record that is made are its tags and its fields. -/
@[simp]
theorem Record.entries_make (tag : String) (fields : List (String × Value)) :
    (make tag fields).entries = .ok (entriesOf tag fields) := rfl

/-- The version of a record that is made is the current one. -/
@[simp]
theorem Record.version_entriesOf (action tag : String) (fields : List (String × Value)) :
    version action (entriesOf tag fields) = .ok currentVersion := by
  simp [version, entriesOf, Value.integer_int]

/-- What comes before the small letters has no other capital. -/
theorem Text.upperChar_of_le {c : Char} (h : c.toNat ≤ 96) : upperChar c = [c] := by
  -- The tables of letters with a capital start after the backquote.
  have hexpansions : ∀ e ∈ caseExpansions, 96 < e.1 := by decide +kernel
  have hruns : ∀ r ∈ caseRuns, 96 < r.first := by decide +kernel
  have hexpansion : caseExpansions.find? (·.1 == c.toNat) = none := by
    rw [List.find?_eq_none]
    intro e he
    have := hexpansions e he
    simp only [beq_iff_eq]
    omega
  have hrun : caseRuns.find? (fun r =>
      r.first ≤ c.toNat && c.toNat ≤ r.last && (c.toNat - r.first) % r.step == 0) = none := by
    rw [Array.find?_eq_none]
    intro r hr
    have := hruns r hr
    simp only [Bool.and_eq_true, decide_eq_true_eq, not_and]
    omega
  simp only [upperChar, hexpansion, hrun]

/-- A text without small letters is its own upper case. -/
theorem Text.upper_of_le {s : String} (h : ∀ c ∈ s.toList, c.toNat ≤ 96) : upper s = s := by
  have hchars : s.toList.flatMap upperChar = s.toList.flatMap fun c => [c] :=
    List.flatMap_congr fun c hc => upperChar_of_le (h c hc)
  rw [upper, hchars, List.flatMap_singleton', String.ofList_toList]

/-- A text is written as it is. -/
theorem Value.written_text (s : String) : (Value.text s).written = .ok s := by
  have hshort : (Value.text s).isShort = true := rfl
  rw [written, if_pos hshort]
  rfl

/-- A storage class is read back from its word. -/
theorem Storage.ofValue_word (c : Storage) : ofValue (.text c.word) = .ok c := by
  have hword : c.word.toList.all (fun c => c.toNat ≤ 96) = true := by cases c <;> decide
  have hupper : Text.upper c.word = c.word :=
    Text.upper_of_le fun c hc => of_decide_eq_true (List.all_eq_true.mp hword c hc)
  have hfound : ofWord? c.word = some c := by cases c <;> rfl
  simp only [ofValue, Value.written_text, Outcome.ok_bind, hupper, hfound]

/-! ### Joint positions -/

/-- Six items fill six places. -/
theorem fillSix_toList {α : Type} (default : α) (v : Vector α 6) :
    fillSix default v.toList = v := by
  ext i hi
  simp [fillSix]

/-- Numbers are read back from a list of them. -/
theorem mapM_number_float (xs : List Float) : (xs.map Value.float).mapM Value.number = .ok xs := by
  induction xs with
  | nil => rfl
  | cons x xs ih =>
    rw [List.map_cons, List.mapM_cons, ih]
    rfl

/-- Robot joints are read back from their record. -/
theorem RobotJoints.ofRecord_toRecord (p : RobotJoints) : ofRecord p.toRecord = .ok p := by
  have hnumbers : p.valuesValue.numbers = .ok p.values.toList := mapM_number_float _
  unfold ofRecord toRecord
  rw [Record.entries_make, Outcome.ok_bind, Record.version_entriesOf, Outcome.ok_bind]
  simp only [Record.required, Record.entriesOf, fieldD, List.map_cons, List.map_nil, field?_cons]
  simp [RobotJoints.make, hnumbers, Storage.ofValue_word, fillSix_toList]

/-- The number for an undefined slot stands for nothing else. -/
theorem slotOf_undefinedValue : slotOf (undefinedValue : Float) = none := by
  decide +kernel

/-- The number that stands for an undefined slot is read as one. -/
theorem ExternalJoints.slotOfValue_undefinedValue :
    slotOfValue (.float undefinedValue) = .ok none :=
  congrArg Except.ok slotOf_undefinedValue

/-- A slot is read back from its value, or from any value that is read as nothing. -/
theorem ExternalJoints.slotOfValue_elim {undefined : Value} {s : Option Float}
    (hundefined : slotOfValue undefined = .ok none) (h : s.bind slotOf = s) :
    slotOfValue (s.elim undefined .float) = .ok s := by
  cases s with
  | none => exact hundefined
  | some x =>
    change slotOf <$> (.ok x : Outcome Float) = _
    rw [Outcome.ok_map]
    exact congrArg _ h

/-- Slots are read back from numbers, where an undefined one stands for none. -/
theorem ExternalJoints.mapM_slotOfValue {undefined : Value} {ss : List (Option Float)}
    (hundefined : slotOfValue undefined = .ok none) (h : ∀ s ∈ ss, s.bind slotOf = s) :
    (ss.map fun s => s.elim undefined .float).mapM slotOfValue = .ok ss := by
  induction ss with
  | nil => rfl
  | cons s ss ih =>
    rw [List.forall_mem_cons] at h
    rw [List.map_cons, List.mapM_cons, slotOfValue_elim hundefined h.1, ih h.2]
    rfl

/-- Slots that are settled stay as they are. -/
theorem ExternalJoints.ofSlots_slots (p : ExternalJoints) :
    ofSlots p.slots p.name p.storage = p := by
  have hslots : p.slots.map (fun s => s.bind slotOf) = p.slots := by
    ext i hi
    have hi' : p.slots[i] ∈ p.slots.toList := by simp
    rw [Vector.getElem_map, p.settled _ hi']
  cases p
  simp only [ofSlots, ExternalJoints.mk.injEq, and_true]
  exact hslots

/-- External joints are read back from their record. -/
theorem ExternalJoints.ofRecord_toRecord (p : ExternalJoints) : ofRecord p.toRecord = .ok p := by
  have hparts : p.storedValues.parts = .ok _ := rfl
  have hslots := mapM_slotOfValue slotOfValue_undefinedValue p.settled
  unfold ofRecord toRecord
  rw [Record.entries_make, Outcome.ok_bind, Record.version_entriesOf, Outcome.ok_bind]
  simp only [Record.required, Record.entriesOf, fieldD, List.map_cons, List.map_nil, field?_cons]
  simp [ExternalJoints.make, hparts, hslots, Storage.ofValue_word, fillSix_toList, ofSlots_slots]

/-! ### Frames, tools and work objects -/

/-- A vector is read back from its value. -/
theorem Vector3.ofValue_toValue (a : Vector3 Float) : ofValue a.toValue = .ok a := rfl

/-- Reading the record of a frame builds the frame anew. -/
theorem Frame.ofValue_toValue (f : Frame Float) : ofValue f.toValue = f.rebuild := by
  have hentries : f.toValue.entries = .ok [(.text "point", f.point.toValue),
    (.text "xaxis", f.xaxis.toValue), (.text "yaxis", f.yaxis.toValue)] := rfl
  have haxis (default a : Vector3 Float) : axisOfValue default (some a.toValue) = .ok a :=
    Vector3.ofValue_toValue a
  have htruthy : f.toValue.truthy = true := rfl
  -- The reader normalizes the first axis before it looks at the second, as the constructor does.
  unfold ofValue
  rw [htruthy, hentries]
  simp [Vector3.ofValue_toValue, haxis, rebuild, ofAxes]

/-- A tool whose frames are rebuilt exactly is read back. -/
theorem Tool.ofValue_toValue {t : Tool Float}
    (hattachment : t.attachment.rebuild = .ok t.attachment) (htip : t.tip.rebuild = .ok t.tip) :
    ofValue t.toValue = .ok t := by
  have hentries : t.toValue.entries = .ok [(.text "name", t.name),
    (.text "attachment_frame", t.attachment.toValue), (.text "tool_frame", t.tip.toValue)] := rfl
  unfold ofValue
  rw [hentries]
  simp [fieldD, Frame.ofValue_toValue, hattachment, htip]

/-- A work object whose frames are rebuilt exactly is read back. -/
theorem WorkObject.ofValue_toValue {w : WorkObject} (huser : w.userFrame.rebuild = .ok w.userFrame)
    (hobject : w.objectFrame.rebuild = .ok w.objectFrame) : ofValue w.toValue = .ok w := by
  have hentries : w.toValue.entries = .ok [(.text "name", w.name),
    (.text "user_frame", w.userFrame.toValue), (.text "object_frame", w.objectFrame.toValue)] := rfl
  unfold ofValue
  rw [hentries]
  simp [fieldD, Frame.ofValue_toValue, huser, hobject]

/-! ### Targets -/

/-- A part that is written if it is there is read back. -/
theorem Record.part?_elim {α : Type} {read : Value → Outcome α} {write : α → Value} {key : String}
    {es : List (Atom × Value)} {part : Option α}
    (hfield : field? key es = some (part.elim .null write))
    (htruthy : ∀ a, (write a).truthy = true)
    (hread : ∀ a, part = some a → read (write a) = .ok a) :
    part? read key es = .ok part := by
  cases part with
  | none => simp [part?, fieldD, hfield, Value.truthy]
  | some a => simp [part?, fieldD, hfield, htruthy, hread a rfl]

/-- The record of external joints is never empty. -/
theorem ExternalJoints.truthy_toRecord (p : ExternalJoints) : p.toRecord.truthy = true := rfl

/-- A joint target with its parts is read back. -/
theorem JointTarget.ofRecord_toRecord {t : JointTarget} {robot : RobotJoints}
    {external : ExternalJoints} (hrobot : t.robot = some robot)
    (hexternal : t.external = some external) :
    ∃ fields, t.toRecord = .ok (Record.make tag fields) ∧
      ofRecord (Record.make tag fields) = .ok t := by
  obtain ⟨name, _, _, storage⟩ := t
  subst hrobot hexternal
  refine ⟨_, rfl, ?_⟩
  unfold ofRecord
  rw [Record.entries_make, Outcome.ok_bind, Record.version_entriesOf, Outcome.ok_bind]
  simp [Record.required, Record.part?, Record.storage, Record.entriesOf, fieldD,
    RobotJoints.ofRecord_toRecord, ExternalJoints.ofRecord_toRecord, ExternalJoints.truthy_toRecord,
    Storage.ofValue_word, Record.storageVersion, Record.currentVersion, JointTarget.make]

/-- A robot target with its parts, whose frame is rebuilt exactly, is read back. -/
theorem RobotTarget.ofRecord_toRecord {t : RobotTarget} {frame : Frame Float}
    {external : ExternalJoints} (hframe : t.frame = some frame)
    (hrebuild : frame.rebuild = .ok frame) (hexternal : t.external = some external) :
    ∃ fields, t.toRecord = .ok (Record.make tag fields) ∧
      ofRecord (Record.make tag fields) = .ok t := by
  obtain ⟨name, _, config, _, storage⟩ := t
  subst hframe hexternal
  refine ⟨_, rfl, ?_⟩
  unfold ofRecord
  rw [Record.entries_make, Outcome.ok_bind, Record.version_entriesOf, Outcome.ok_bind]
  simp [Record.required, Record.part?, Record.storage, Record.entriesOf, fieldD,
    ExternalJoints.ofRecord_toRecord, ExternalJoints.truthy_toRecord, Frame.ofValue_toValue,
    hrebuild, Storage.ofValue_word, Record.storageVersion, Record.currentVersion, RobotTarget.make,
    Value.integer_int]

/-! ### Speeds and instructions -/

/-- A speed whose velocities are numbers and whose flag is a truth value. -/
structure Speed.Settled (s : Speed) : Prop where
  tool : ∃ x, s.tool = .float x
  turn : ∃ x, s.turn = .float x
  linear : ∃ x, s.linear = .float x
  rotational : ∃ x, s.rotational = .float x
  predefined : ∃ b, s.predefined = .bool b

/-- A settled speed is read back. -/
theorem Speed.ofRecord_toRecord {s : Speed} (h : s.Settled) : ofRecord s.toRecord = .ok s := by
  obtain ⟨⟨tool, htool⟩, ⟨turn, hturn⟩, ⟨linear, hlinear⟩, ⟨rotational, hrotational⟩,
    ⟨predefined, hpredefined⟩⟩ := h
  obtain ⟨name, _, _, _, _, _, exact⟩ := s
  subst htool hturn hlinear hrotational hpredefined
  unfold ofRecord toRecord
  rw [Record.entries_make, Outcome.ok_bind, Record.version_entriesOf, Outcome.ok_bind]
  simp [Record.required, Record.entriesOf, fieldD, Speed.make, Value.number_float,
    Value.truthy_bool, pure, Except.pure]

/-- A settled speed is its own copy. -/
theorem Speed.duplicate_eq {s : Speed} (h : s.Settled) : s.duplicate = .ok s := by
  obtain ⟨⟨tool, htool⟩, ⟨turn, hturn⟩, ⟨linear, hlinear⟩, ⟨rotational, hrotational⟩, -⟩ := h
  obtain ⟨name, _, _, _, _, predefined, exact⟩ := s
  subst htool hturn hlinear hrotational
  rfl

/-- A wait is read back from its record. -/
theorem Wait.ofRecord_toRecord (w : Wait) : ofRecord w.toRecord = .ok w := by
  unfold ofRecord toRecord
  rw [Record.entries_make, Outcome.ok_bind, Record.version_entriesOf, Outcome.ok_bind]
  simp [Record.required, Record.entriesOf, fieldD, Value.number_float, Value.truthy_bool,
    Record.inPositionVersion, Record.currentVersion, pure, Except.pure]

/-- An output is read back from its record. -/
theorem Output.ofRecord_toRecord (o : Output) : ofRecord o.toRecord = .ok o := by
  unfold ofRecord toRecord
  rw [Record.entries_make, Outcome.ok_bind, Record.version_entriesOf, Outcome.ok_bind]
  simp [Record.entriesOf, fieldD, Value.truthy_bool, pure, Except.pure]

/-! ### Movements -/

/-- A type that is read back from its number: a known one, or the number of none of them. -/
def MoveType.Settled (kind : MoveType) : Prop :=
  ∃ n, kind.toValue = .int n ∧ MoveType.ofValue (.int n) = .ok kind

namespace Action

/-- The frames that an action holds. -/
def frames : Action → List (Frame Float)
  | robotTarget t => t.frame.toList
  | movement m none => toolFrames m ++ workObjectFrames m
  | movement m (some target) => toolFrames m ++ workObjectFrames m ++ frames target
  | _ => []
where
  /-- The frames of the tool of a movement. -/
  toolFrames (m : Movement) : List (Frame Float) :=
    m.tool.elim [] fun t => [t.attachment, t.tip]
  /-- The frames of the work object of a movement. -/
  workObjectFrames (m : Movement) : List (Frame Float) :=
    [m.workObject.userFrame, m.workObject.objectFrame]

end Action

/-- A movement as its constructor leaves it: with a speed, a type that can be read back, a whole
precision, and the pose that belongs to its target. -/
structure Movement.Settled (m : Movement) (target : Option Action) : Prop where
  speed : ∃ s, m.speed = some s ∧ s.Settled
  kind : m.kind.Settled
  precision : ∃ n, m.precision = .int n
  pose : Action.globalFrame m.workObject target = .ok m.globalFrame

namespace Action

/-- An action as its constructor leaves it: no part is missing, and numbers are numbers. -/
def Settled : Action → Prop
  | jointTarget t => t.robot.isSome = true ∧ t.external.isSome = true
  | robotTarget t => t.frame.isSome = true ∧ t.external.isSome = true
  | speed s => s.Settled
  | movement _ none => False
  | movement m (some target) => m.Settled (some target) ∧ target.Settled
  | _ => True

/-- Building every frame of an action anew gives the frame. -/
def FramesKept (a : Action) : Prop := ∀ f ∈ a.frames, f.rebuild = .ok f

/-- A movement is made again from its parts. -/
theorem makeMovement_eq {m : Movement} {target : Option Action} (h : m.Settled target) :
    makeMovement target m.speed m.kind.toValue m.precision m.tool (some m.workObject) m.output =
      .ok (movement m target) := by
  obtain ⟨⟨s, hs, hspeed⟩, ⟨n, hn, hkind⟩, ⟨precision, hprecision⟩, hpose⟩ := h
  unfold makeMovement recompute
  rw [hs, hn, hprecision, Option.getD_some, Speed.duplicate_eq hspeed, hkind]
  simp only [Outcome.ok_bind, Value.integer_int, Option.getD_some, hpose]
  rw [← hs, ← hprecision]
  rfl

/-- The frames of a movement are those of its tool, of its work object and of its target. -/
theorem framesKept_movement {m : Movement} {target : Action}
    (h : (movement m (some target)).FramesKept) :
    (∀ t, m.tool = some t → t.attachment.rebuild = .ok t.attachment ∧ t.tip.rebuild = .ok t.tip) ∧
      m.workObject.userFrame.rebuild = .ok m.workObject.userFrame ∧
      m.workObject.objectFrame.rebuild = .ok m.workObject.objectFrame ∧ target.FramesKept := by
  refine ⟨fun t ht => ⟨h _ ?_, h _ ?_⟩, h _ ?_, h _ ?_, fun f hf => h f ?_⟩
  · simp [frames, frames.toolFrames, ht]
  · simp [frames, frames.toolFrames, ht]
  · simp [frames, frames.workObjectFrames]
  · simp [frames, frames.workObjectFrames]
  · simp [frames, hf]

/-- A settled action whose frames are kept is its own copy. -/
theorem duplicate_eq {a : Action} (h : a.Settled) (hframes : a.FramesKept) :
    a.duplicate = .ok a := by
  match a with
  | robotJoints p => rfl
  | externalJoints p => rfl
  | jointTarget t =>
    obtain ⟨name, robot, external, storage⟩ := t
    obtain ⟨hrobot, hexternal⟩ := h
    obtain ⟨robot, rfl⟩ := Option.isSome_iff_exists.mp hrobot
    obtain ⟨external, rfl⟩ := Option.isSome_iff_exists.mp hexternal
    rfl
  | robotTarget t =>
    obtain ⟨name, frame, config, external, storage⟩ := t
    obtain ⟨hframe, hexternal⟩ := h
    obtain ⟨frame, rfl⟩ := Option.isSome_iff_exists.mp hframe
    obtain ⟨external, rfl⟩ := Option.isSome_iff_exists.mp hexternal
    have hrebuild : frame.rebuild = .ok frame := hframes frame (by simp [frames])
    simp [duplicate, RobotTarget.duplicate, hrebuild, pure, Except.pure]
  | speed s => rw [duplicate, Speed.duplicate_eq h, Outcome.ok_map]
  | wait w => rfl
  | output o => rfl
  | movement m none => exact h.elim
  | movement m (some target) =>
    -- The target is its own copy, and the movement is made again from equal parts.
    have ih := duplicate_eq h.2 (framesKept_movement hframes).2.2.2
    rw [duplicate, ih, Outcome.ok_bind]
    exact makeMovement_eq h.1

/-! ### Reading back -/

/-- The record of an action that is no movement is read by its type. -/
theorem ofRecord_of_simple {tag : String} {fields : List (String × Value)} {a : Action}
    (h : simpleOfRecord? tag (Record.make tag fields) = some (.ok a)) :
    ofRecord (Record.make tag fields) = .ok a := by
  have htag : fieldD "type" (Record.entriesOf tag fields) .null = .text tag := by
    simp [fieldD, Record.entriesOf]
  -- A record is the mapping of its entries, which is what the decoder matches on.
  change ofRecord (.map (Record.entriesOf tag fields)) = _
  change simpleOfRecord? tag (.map (Record.entriesOf tag fields)) = _ at h
  rw [ofRecord, htag, ofEntries, h]
  rfl

/-- The entries of the record of a movement with a speed, the number of its type and the record of
its target. -/
def movementEntries (m : Movement) (s : Speed) (n : Int) (target : Value) : List (Atom × Value) :=
  Record.entriesOf Movement.tag [("target", target), ("speed_data", s.toRecord),
    ("movement_type", .int n), ("precision", m.precision),
    ("robot_tool", m.tool.elim .null Tool.toValue), ("work_object", m.workObject.toValue),
    ("digital_output", m.output.elim .null Output.toRecord)]

/-- The record of a movement that has a speed, by its entries. -/
theorem movementRecord_eq {m : Movement} {s : Speed} {n : Int} (hs : m.speed = some s)
    (hn : m.kind.toValue = .int n) (target : Value) :
    movementRecord m target = .ok (.map (movementEntries m s n target)) := by
  simp only [movementRecord, hs, present, hn, Value.integer_int, Outcome.ok_bind]
  rfl

/-- The parts of a movement are read back from its entries. -/
theorem movementEntries_parts {m : Movement} {target : Action}
    (hframes : (movement m (some target)).FramesKept) (s : Speed) (n : Int) (v : Value) :
    Record.part? Tool.ofValue "robot_tool" (movementEntries m s n v) = .ok m.tool ∧
      Record.part? WorkObject.ofValue "work_object" (movementEntries m s n v) =
        .ok (some m.workObject) ∧
      Record.part? Output.ofRecord "digital_output" (movementEntries m s n v) = .ok m.output := by
  obtain ⟨htool, huser, hobject, -⟩ := framesKept_movement hframes
  have htoolField : field? "robot_tool" (movementEntries m s n v) =
      some (m.tool.elim .null Tool.toValue) := by
    simp [movementEntries, Record.entriesOf]
  have hworkObjectField : field? "work_object" (movementEntries m s n v) =
      some ((some m.workObject).elim .null WorkObject.toValue) := by
    simp [movementEntries, Record.entriesOf]
  have houtputField : field? "digital_output" (movementEntries m s n v) =
      some (m.output.elim .null Output.toRecord) := by
    simp [movementEntries, Record.entriesOf]
  refine ⟨Record.part?_elim htoolField (fun _ => rfl) fun t ht => ?_,
    Record.part?_elim hworkObjectField (fun _ => rfl) ?_,
    Record.part?_elim houtputField (fun _ => rfl) fun o _ => ?_⟩
  · exact Tool.ofValue_toValue (htool t ht).1 (htool t ht).2
  · rintro w ⟨⟩
    exact WorkObject.ofValue_toValue huser hobject
  · exact Output.ofRecord_toRecord o

/-- A movement is made again from its entries, given its target. -/
theorem movementOfEntries_eq {m : Movement} {target : Action} {s : Speed} {n : Int} {v : Value}
    (h : m.Settled (some target)) (hframes : (movement m (some target)).FramesKept)
    (hs : m.speed = some s) (hn : m.kind.toValue = .int n) (hspeed : s.Settled)
    (hcopy : target.duplicate = .ok target) :
    movementOfEntries (movementEntries m s n v) (fun _ => .ok target) =
      .ok (movement m (some target)) := by
  obtain ⟨htool, hworkObject, houtput⟩ := movementEntries_parts hframes s n v
  have hversion : Record.version Movement.tag (movementEntries m s n v) = _ :=
    Record.version_entriesOf Movement.tag _ _
  have hspeedOf : Record.required Movement.tag "speed_data" (movementEntries m s n v) =
      .ok s.toRecord := by
    simp [Record.required, movementEntries, Record.entriesOf]
  have hkindOf : fieldD "movement_type" (movementEntries m s n v) (.int 0) = m.kind.toValue := by
    simp [fieldD, movementEntries, Record.entriesOf, hn]
  have hprecisionOf : fieldD "precision" (movementEntries m s n v) (.int 0) = m.precision := by
    simp [fieldD, movementEntries, Record.entriesOf]
  unfold movementOfEntries
  simp only [hversion, hspeedOf, Speed.ofRecord_toRecord hspeed, htool, hworkObject, houtput,
    hkindOf, hprecisionOf, Outcome.ok_bind]
  -- The constructor copies the target that was read, and computes the pose anew.
  simp only [moveTo, Option.mapM_some, hcopy, Outcome.ok_map, Outcome.ok_bind, ← hs]
  exact makeMovement_eq h

/-- The record of a settled movement whose target is read back is read back. -/
theorem ofRecord_movementRecord {m : Movement} {target : Action} {v : Value}
    (h : m.Settled (some target)) (hframes : (movement m (some target)).FramesKept)
    (htarget : ofRecord v = .ok target) (hcopy : target.duplicate = .ok target) :
    ∃ record, movementRecord m v = .ok record ∧
      ofRecord record = .ok (movement m (some target)) := by
  obtain ⟨s, hs, hspeed⟩ := h.speed
  obtain ⟨n, hn, -⟩ := h.kind
  refine ⟨_, movementRecord_eq hs hn v, ?_⟩
  have htag : fieldD "type" (movementEntries m s n v) .null = .text Movement.tag := by
    simp [fieldD, movementEntries, Record.entriesOf]
  have htargetOf : targetOfEntries (movementEntries m s n v) = .ok target := by
    simp [movementEntries, Record.entriesOf, targetOfEntries, Atom.same, htarget]
  rw [ofRecord, htag, ofEntries, htargetOf, movementOfEntries_eq h hframes hs hn hspeed hcopy]
  rfl

/-- Decoding undoes encoding: a settled action whose frames are kept has a record, and is read back
from it. -/
theorem exists_record {a : Action} (h : a.Settled) (hframes : a.FramesKept) :
    ∃ v, a.toRecord = .ok v ∧ ofRecord v = .ok a := by
  match a with
  | robotJoints p =>
    exact ⟨_, rfl, ofRecord_of_simple (congrArg (fun o => some (robotJoints <$> o))
      p.ofRecord_toRecord)⟩
  | externalJoints p =>
    exact ⟨_, rfl, ofRecord_of_simple (congrArg (fun o => some (externalJoints <$> o))
      p.ofRecord_toRecord)⟩
  | jointTarget t =>
    obtain ⟨robot, hrobot⟩ := Option.isSome_iff_exists.mp h.1
    obtain ⟨external, hexternal⟩ := Option.isSome_iff_exists.mp h.2
    obtain ⟨fields, hrecord, hread⟩ := JointTarget.ofRecord_toRecord hrobot hexternal
    exact ⟨_, hrecord, ofRecord_of_simple (congrArg (fun o => some (jointTarget <$> o)) hread)⟩
  | robotTarget t =>
    obtain ⟨frame, hframe⟩ := Option.isSome_iff_exists.mp h.1
    obtain ⟨external, hexternal⟩ := Option.isSome_iff_exists.mp h.2
    have hrebuild : frame.rebuild = .ok frame := hframes frame (by simp [frames, hframe])
    obtain ⟨fields, hrecord, hread⟩ := RobotTarget.ofRecord_toRecord hframe hrebuild hexternal
    exact ⟨_, hrecord, ofRecord_of_simple (congrArg (fun o => some (robotTarget <$> o)) hread)⟩
  | speed s =>
    exact ⟨_, rfl, ofRecord_of_simple (congrArg (fun o => some (speed <$> o))
      (Speed.ofRecord_toRecord h))⟩
  | wait w =>
    exact ⟨_, rfl, ofRecord_of_simple (congrArg (fun o => some (wait <$> o)) w.ofRecord_toRecord)⟩
  | output o =>
    exact ⟨_, rfl, ofRecord_of_simple (congrArg (fun o => some (output <$> o))
      o.ofRecord_toRecord)⟩
  | movement m none => exact h.elim
  | movement m (some target) =>
    -- By induction on the target, whose record is a field of that of the movement.
    have hkept := (framesKept_movement hframes).2.2.2
    obtain ⟨v, hv, htarget⟩ := exists_record h.2 hkept
    obtain ⟨record, hrecord, hmovement⟩ :=
      ofRecord_movementRecord h.1 hframes htarget (duplicate_eq h.2 hkept)
    exact ⟨record, by rw [toRecord, hv, Outcome.ok_bind, hrecord], hmovement⟩

end Action

end RobotProgram
