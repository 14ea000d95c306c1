import Mathlib.Tactic.Common
import RobotProgram.Proofs.Records

/-!
# Migrating records

Readers decide by the version of a record which fields they look at. `upgrade` moves that decision
into the data: it writes a record of any version as one of the current version, with the fields that
the readers of its own version would have looked at. `reading_upgraded_record` says that both ways
come to the same, faults included.

A reader looks at its record through `field?` only, so the proofs ask which fields an upgrade keeps
(`AgreeBut`) and what the gated fields give after it (`storage_migrated`, `inPosition_migrated`).
-/

namespace RobotProgram

/-! ### Changing fields -/

/-- Only a text is the same as a text. -/
theorem Atom.same_text {a : Atom} {key : String} : a.same (.text key) = true ↔ a = .text key := by
  cases a <;> simp [Atom.same, Atom.whole?]

/-- The entries without a field. -/
def dropField (key : String) (es : List (Atom × Value)) : List (Atom × Value) :=
  es.filter fun e => !e.1.same (.text key)

/-- The entries with another value in a field. -/
def setField (key : String) (v : Value) (es : List (Atom × Value)) : List (Atom × Value) :=
  insertEntry (.text key) v es

/-- A field is that of the first entry with its name. -/
theorem field?_cons_eq (key : String) (a : Atom) (v : Value) (es : List (Atom × Value)) :
    field? key ((a, v) :: es) = if a = .text key then some v else field? key es := by
  unfold field? entry?
  by_cases h : a = .text key
  · simp [h, Atom.same]
  · have hsame : a.same (.text key) = false := by
      rw [← Bool.not_eq_true, Atom.same_text]
      exact h
    simp [h, hsame]

/-- A field that is set has the value, and the others are kept. -/
theorem field?_setField (key k : String) (v : Value) (es : List (Atom × Value)) :
    field? key (setField k v es) = if k = key then some v else field? key es := by
  unfold setField
  induction es with
  | nil => simp [insertEntry]
  | cons e es ih =>
    obtain ⟨a, w⟩ := e
    by_cases ha : a = .text k
    · subst ha
      by_cases hk : k = key <;> simp [insertEntry, Atom.same, hk]
    · have hsame : ¬a.same (.text k) = true := fun h => ha (Atom.same_text.mp h)
      rw [insertEntry, if_neg hsame, field?_cons_eq, field?_cons_eq, ih]
      by_cases hk : k = key
      · subst hk
        simp [ha]
      · simp [hk]

/-- A field that is dropped is not there, and the others are kept. -/
theorem field?_dropField (key k : String) (es : List (Atom × Value)) :
    field? key (dropField k es) = if k = key then none else field? key es := by
  unfold dropField
  induction es with
  | nil => simp
  | cons e es ih =>
    obtain ⟨a, w⟩ := e
    by_cases ha : a = .text k
    · subst ha
      rw [List.filter_cons_of_neg (by simp [Atom.same]), ih, field?_cons]
      by_cases hk : k = key <;> simp [hk]
    · have hother : a.same (.text k) = false := by
        rw [← Bool.not_eq_true, Atom.same_text]
        exact ha
      rw [List.filter_cons_of_pos (by simp [hother]), field?_cons_eq, field?_cons_eq, ih]
      by_cases hk : k = key
      · subst hk
        simp [ha]
      · simp [hk]

/-! ### Upgrading -/

namespace Record

/-- The version of some entries, if it can be read. -/
def version? (es : List (Atom × Value)) : Option Int :=
  (field? "version" es).bind fun v => v.integer.toOption

/-- The storage class of a target moved to the field where the current version has it. -/
def migrateStorage (es : List (Atom × Value)) : List (Atom × Value) :=
  match field? "reference_type" es with
  | some v => setField "variable_type" v es
  | none => dropField "variable_type" es

/-- The fields of a record of some type and version, as the current version has them. -/
def migrate (tag : Value) (version : Int) (es : List (Atom × Value)) : List (Atom × Value) :=
  if tag = .text Wait.tag ∧ version ≤ inPositionVersion then dropField "in_position" es
  else if (tag = .text JointTarget.tag ∨ tag = .text RobotTarget.tag) ∧
      version < storageVersion then
    migrateStorage es
  else es

mutual

/-- A record written in the current version. A record whose version cannot be read is kept. -/
def upgrade : Value → Value
  | .map es =>
    match version? es with
    | none => .map es
    | some n =>
      let tag := fieldD "type" es .null
      let es := if tag = .text Movement.tag then upgradeTarget es else es
      .map (setField "version" (.int currentVersion) (migrate tag n es))
  | v => v

/-- The entries of a movement whose target is written in the current version. -/
def upgradeTarget : List (Atom × Value) → List (Atom × Value)
  | [] => []
  | (key, v) :: es =>
    if key.same (.text "target") then (key, upgrade v) :: es else (key, v) :: upgradeTarget es

end

/-! ### What an upgrade keeps -/

/-- Entries that agree in all fields but some. -/
def AgreeBut (keys : List String) (es es' : List (Atom × Value)) : Prop :=
  ∀ key, key ∉ keys → field? key es' = field? key es

section AgreeBut

variable {keys : List String} {es es' : List (Atom × Value)}

/-- A field with a default is read the same, unless it is one of the exceptions. -/
theorem AgreeBut.fieldD (h : AgreeBut keys es es') (key : String) (hkey : key ∉ keys)
    (default : Value) :
    RobotProgram.fieldD key es' default = RobotProgram.fieldD key es default := by
  rw [RobotProgram.fieldD, RobotProgram.fieldD, h key hkey]

/-- A field that must be there is read the same, unless it is one of the exceptions. -/
theorem AgreeBut.required (h : AgreeBut keys es es') (action key : String) (hkey : key ∉ keys) :
    Record.required action key es' = Record.required action key es := by
  rw [Record.required, Record.required, h key hkey]

/-- A part is read the same, unless it is one of the exceptions. -/
theorem AgreeBut.part? {α : Type} (h : AgreeBut keys es es') (read : Value → Outcome α)
    (key : String) (hkey : key ∉ keys) : Record.part? read key es' = Record.part? read key es := by
  rw [Record.part?, Record.part?, h.fieldD key hkey]

/-- Writing the version changes no other field. -/
theorem AgreeBut.setVersion (h : AgreeBut keys es es') (v : Value) :
    AgreeBut ("version" :: keys) es (setField "version" v es') := by
  intro key hkey
  simp only [List.mem_cons, not_or] at hkey
  rw [field?_setField, if_neg (Ne.symm hkey.1), h key hkey.2]

end AgreeBut

/-- The target of upgraded entries is the upgraded target. -/
theorem field?_upgradeTarget (key : String) (es : List (Atom × Value)) :
    field? key (upgradeTarget es) =
      if key = "target" then (field? key es).map upgrade else field? key es := by
  induction es with
  | nil => simp [upgradeTarget]
  | cons e es ih =>
    obtain ⟨a, v⟩ := e
    rw [upgradeTarget]
    by_cases ha : a = .text "target"
    · subst ha
      by_cases hkey : key = "target" <;> simp [Atom.same, hkey, eq_comm]
    · have hsame : ¬a.same (.text "target") = true := fun h => ha (Atom.same_text.mp h)
      rw [if_neg hsame, field?_cons_eq, field?_cons_eq, ih]
      by_cases hkey : key = "target"
      · subst hkey
        simp [ha]
      · simp [hkey]

/-- The fields that an upgrade may change, apart from the target of a movement. -/
def gatedFields : List String := ["version", "in_position", "variable_type"]

/-- An upgrade changes only the fields that versions treat differently. -/
theorem agreeBut_migrated (tag v : Value) (n : Int) (es : List (Atom × Value)) :
    AgreeBut gatedFields es (setField "version" v (migrate tag n es)) := by
  refine AgreeBut.setVersion ?_ v
  intro key hkey
  simp only [List.mem_cons, List.not_mem_nil, or_false, not_or] at hkey
  unfold migrate migrateStorage
  split_ifs
  · simp [field?_dropField, Ne.symm hkey.1]
  · split <;> simp [field?_dropField, field?_setField, Ne.symm hkey.2]
  · rfl

/-- A version that can be read is the version for every reader. -/
theorem version_of_version? {es : List (Atom × Value)} {n : Int} (h : version? es = some n)
    (action : String) : version action es = .ok n := by
  obtain ⟨v, hv, hn⟩ := Option.bind_eq_some_iff.mp h
  simp [version, hv, Outcome.toOption_eq_some.mp hn]

/-- The version that an upgrade writes. -/
theorem version_setField (action : String) (es : List (Atom × Value)) :
    version action (setField "version" (.int currentVersion) es) = .ok currentVersion := by
  simp [version, field?_setField, Value.integer_int]

/-- The storage class of a target is read as before its migration. -/
theorem storage_migrated {n : Int} {es : List (Atom × Value)} {tag : Value}
    (htag : tag = .text JointTarget.tag ∨ tag = .text RobotTarget.tag) :
    storage currentVersion (setField "version" (.int currentVersion) (migrate tag n es)) =
      storage n es := by
  have hwait : tag ≠ .text Wait.tag := by
    rcases htag with rfl | rfl <;> decide
  have hcurrent : storageVersion ≤ currentVersion := by decide
  unfold storage
  simp only [hcurrent, if_true, field?_setField, migrate, hwait, false_and, if_false, htag,
    true_and]
  rw [if_neg (by decide)]
  by_cases hn : storageVersion ≤ n
  · simp [hn, Int.not_lt.mpr hn]
  · -- An older record has its storage class under another name.
    rw [if_pos (Int.not_le.mp hn), if_neg hn, migrateStorage]
    cases hfield : field? "reference_type" es with
    | none => simp [field?_dropField]
    | some v => simp [field?_setField]

/-- Whether to wait in position is read as before the migration of a wait. -/
theorem inPosition_migrated (n : Int) (es : List (Atom × Value)) :
    (decide (inPositionVersion < currentVersion) &&
        (fieldD "in_position" (setField "version" (.int currentVersion)
          (migrate (.text Wait.tag) n es)) (.bool false)).truthy) =
      (decide (inPositionVersion < n) && (fieldD "in_position" es (.bool false)).truthy) := by
  have hcurrent : inPositionVersion < currentVersion := by decide
  unfold fieldD
  simp only [hcurrent, decide_true, Bool.true_and, field?_setField, migrate, true_and]
  rw [if_neg (by decide)]
  by_cases hn : n ≤ inPositionVersion
  · simp [hn, Int.not_lt.mpr hn, field?_dropField, Value.truthy]
  · have htarget : ¬(Value.text Wait.tag = .text JointTarget.tag ∨
        Value.text Wait.tag = .text RobotTarget.tag) := by decide
    simp only [hn, htarget, false_and, if_false, Int.not_le.mp hn, decide_true, Bool.true_and]

end Record

/-! ### Readers -/

section Readers

open Record

variable {es es' : List (Atom × Value)} {n n' : Int}

/-- Robot joints of a readable version are read the same, whichever it is. -/
theorem RobotJoints.ofRecord_congr (h : AgreeBut ["version"] es es') (hn : version tag es = .ok n)
    (hn' : version tag es' = .ok n') : ofRecord (.map es') = ofRecord (.map es) := by
  have hvalues := h.required tag "values" (by decide)
  have hname := h.fieldD "name" (by decide)
  have hstorage := h.fieldD "variable_type" (by decide)
  simp only [ofRecord, Value.entries, Outcome.ok_bind, hn, hn', hvalues, hname, hstorage]

/-- External joints of a readable version are read the same, whichever it is. -/
theorem ExternalJoints.ofRecord_congr (h : AgreeBut ["version"] es es')
    (hn : version tag es = .ok n) (hn' : version tag es' = .ok n') :
    ofRecord (.map es') = ofRecord (.map es) := by
  have hvalues := h.required tag "values" (by decide)
  have hname := h.fieldD "name" (by decide)
  have hstorage := h.fieldD "variable_type" (by decide)
  simp only [ofRecord, Value.entries, Outcome.ok_bind, hn, hn', hvalues, hname, hstorage]

/-- A speed of a readable version is read the same, whichever it is. -/
theorem Speed.ofRecord_congr (h : AgreeBut gatedFields es es') (hn : version tag es = .ok n)
    (hn' : version tag es' = .ok n') : ofRecord (.map es') = ofRecord (.map es) := by
  have hname := h.required tag "name" (by decide)
  have htool := h.required tag "v_tcp" (by decide)
  have hturn := h.fieldD "v_ori" (by decide)
  have hlinear := h.fieldD "v_leax" (by decide)
  have hrotational := h.fieldD "v_reax" (by decide)
  have hpredefined := h.fieldD "predefined" (by decide)
  have hexact := h "exact_predefined" (by decide)
  simp only [ofRecord, Value.entries, Outcome.ok_bind, hn, hn', hname, htool, hturn, hlinear,
    hrotational, hpredefined, hexact]

/-- An output of a readable version is read the same, whichever it is. -/
theorem Output.ofRecord_congr (h : AgreeBut gatedFields es es') (hn : version tag es = .ok n)
    (hn' : version tag es' = .ok n') : ofRecord (.map es') = ofRecord (.map es) := by
  have hname := h.fieldD "name" (by decide)
  have hactive := h.fieldD "is_active" (by decide)
  simp only [ofRecord, Value.entries, Outcome.ok_bind, hn, hn', hname, hactive]

/-- A wait is read by its duration and by whether its version and its fields say to wait in
position. -/
theorem Wait.ofRecord_congr (h : AgreeBut gatedFields es es')
    (hn : version tag es = .ok n) (hn' : version tag es' = .ok n')
    (hposition : (decide (inPositionVersion < n') &&
        (fieldD "in_position" es' (.bool false)).truthy) =
      (decide (inPositionVersion < n) && (fieldD "in_position" es (.bool false)).truthy)) :
    ofRecord (.map es') = ofRecord (.map es) := by
  have hduration := h.required tag "duration" (by decide)
  simp only [ofRecord, Value.entries, Outcome.ok_bind, hn, hn', hduration, hposition]

/-- A joint target is read by its positions, its name and its storage class. -/
theorem JointTarget.ofRecord_congr (h : AgreeBut gatedFields es es')
    (hn : version tag es = .ok n) (hn' : version tag es' = .ok n')
    (hstorage : Record.storage n' es' = Record.storage n es) :
    ofRecord (.map es') = ofRecord (.map es) := by
  have hrobot := h.required tag "robot_joint_position" (by decide)
  have hexternal := h.part? ExternalJoints.ofRecord "external_joint_position" (by decide)
  have hname := h.fieldD "name" (by decide)
  simp only [ofRecord, Value.entries, Outcome.ok_bind, hn, hn', hrobot, hexternal, hname, hstorage]

/-- A robot target is read by its pose, its external values, its name and its storage class. -/
theorem RobotTarget.ofRecord_congr (h : AgreeBut gatedFields es es')
    (hn : version tag es = .ok n) (hn' : version tag es' = .ok n')
    (hstorage : Record.storage n' es' = Record.storage n es) :
    ofRecord (.map es') = ofRecord (.map es) := by
  have hframe := h.required tag "frame" (by decide)
  have hexternal := h.part? ExternalJoints.ofRecord "external_joint_position" (by decide)
  have hname := h.fieldD "name" (by decide)
  have hconfig := h.fieldD "axis_config" (by decide)
  simp only [ofRecord, Value.entries, Outcome.ok_bind, hn, hn', hframe, hexternal, hname, hconfig,
    hstorage]

namespace Action

/-- A movement is read by its parts and by its target. -/
theorem movementOfEntries_congr {target target' : Unit → Outcome Action}
    (h : AgreeBut ("target" :: gatedFields) es es') (hn : version Movement.tag es = .ok n)
    (hn' : version Movement.tag es' = .ok n') (htarget : target' () = target ()) :
    movementOfEntries es' target' = movementOfEntries es target := by
  have hspeed := h.required Movement.tag "speed_data" (by decide)
  have htool := h.part? Tool.ofValue "robot_tool" (by decide)
  have hworkObject := h.part? WorkObject.ofValue "work_object" (by decide)
  have houtput := h.part? Output.ofRecord "digital_output" (by decide)
  have hkind := h.fieldD "movement_type" (by decide)
  have hprecision := h.fieldD "precision" (by decide)
  simp only [movementOfEntries, Outcome.ok_bind, hn, hn', htarget, hspeed, htool, hworkObject,
    houtput, hkind, hprecision]

/-- The target of a movement is read from its field. -/
theorem targetOfEntries_eq (es : List (Atom × Value)) :
    targetOfEntries es =
      (field? "target" es).elim (.error (.missingField Movement.tag "target")) ofRecord := by
  induction es with
  | nil => simp [targetOfEntries]
  | cons e es ih =>
    obtain ⟨a, v⟩ := e
    rw [targetOfEntries, field?_cons_eq, ih]
    by_cases ha : a = .text "target"
    · simp [ha, Atom.same]
    · have hsame : ¬a.same (.text "target") = true := fun h => ha (Atom.same_text.mp h)
      rw [if_neg hsame, if_neg ha]

/-- A record that is no movement is read like its upgrade. -/
theorem simpleOfRecord?_migrated (s : String) (hn : version? es = some n) :
    simpleOfRecord? s (.map (setField "version" (.int currentVersion) (migrate (.text s) n es))) =
      simpleOfRecord? s (.map es) := by
  have hversion := version_of_version? hn
  have hwritten (action : String) := version_setField action (migrate (.text s) n es)
  have hkept := agreeBut_migrated (.text s) (.int currentVersion) n es
  -- Joint positions have a storage class too, which no version has under another name.
  have hplain (hs : migrate (.text s) n es = es) : AgreeBut ["version"] es
      (setField "version" (.int currentVersion) (migrate (.text s) n es)) := by
    rw [hs]
    exact AgreeBut.setVersion (fun _ _ => rfl) _
  unfold simpleOfRecord?
  split_ifs with h₁ h₂ h₃ h₄ h₅ h₆ h₇
  · obtain rfl := eq_of_beq h₁
    rw [RobotJoints.ofRecord_congr (hplain rfl) (hversion _) (hwritten _)]
  · obtain rfl := eq_of_beq h₂
    rw [ExternalJoints.ofRecord_congr (hplain rfl) (hversion _) (hwritten _)]
  · obtain rfl := eq_of_beq h₃
    rw [JointTarget.ofRecord_congr hkept (hversion _) (hwritten _) (storage_migrated (.inl rfl))]
  · obtain rfl := eq_of_beq h₄
    rw [RobotTarget.ofRecord_congr hkept (hversion _) (hwritten _) (storage_migrated (.inr rfl))]
  · rw [Speed.ofRecord_congr hkept (hversion _) (hwritten _)]
  · obtain rfl := eq_of_beq h₆
    rw [Wait.ofRecord_congr hkept (hversion _) (hwritten _) (inPosition_migrated n es)]
  · rw [Output.ofRecord_congr hkept (hversion _) (hwritten _)]
  · rfl

/-- A movement is read like its upgrade, if its target is. -/
theorem movementOfEntries_migrated (hn : version? es = some n)
    (htarget : ∀ v, field? "target" es = some v → ofRecord (upgrade v) = ofRecord v) :
    let es' := setField "version" (.int currentVersion)
      (migrate (.text Movement.tag) n (upgradeTarget es))
    movementOfEntries es' (fun _ => targetOfEntries es') =
      movementOfEntries es fun _ => targetOfEntries es := by
  intro es'
  have hkept := agreeBut_migrated (.text Movement.tag) (.int currentVersion) n (upgradeTarget es)
  refine movementOfEntries_congr ?_ (version_of_version? hn _) (version_setField _ _) ?_
  · intro key hkey
    rw [List.mem_cons, not_or] at hkey
    rw [hkept key hkey.2, field?_upgradeTarget, if_neg hkey.1]
  · rw [targetOfEntries_eq, targetOfEntries_eq, hkept "target" (by decide), field?_upgradeTarget,
      if_pos rfl]
    cases hfield : field? "target" es with
    | none => rfl
    | some v => exact htarget v hfield

/-- The record of a target is smaller than that of its movement. -/
theorem sizeOf_field? {key : String} {v : Value} (h : field? key es = some v) :
    sizeOf v < sizeOf (Value.map es) := by
  obtain ⟨⟨a, w⟩, he, rfl⟩ := Option.map_eq_some_iff.mp h
  have hmem := List.sizeOf_lt_of_mem (List.mem_of_find?_eq_some he)
  simp only [Prod.mk.sizeOf_spec, Value.map.sizeOf_spec] at hmem ⊢
  omega

/-- What a record of a type gives depends on the reader of its type only. -/
theorem ofEntries_congr {tag : Value} {target target' : Unit → Outcome Action}
    (hsimple : ∀ s, tag = .text s → simpleOfRecord? s (.map es') = simpleOfRecord? s (.map es))
    (hmovement : tag = .text Movement.tag →
      movementOfEntries es' target' = movementOfEntries es target) :
    ofEntries tag es' target' = ofEntries tag es target := by
  match tag with
  | .list _ | .map _ | .null | .bool _ | .int _ | .float _ | .atom (.date ..)
  | .atom (.moment ..) =>
    rfl
  | .text s =>
    rw [ofEntries, ofEntries, hsimple s rfl]
    cases simpleOfRecord? s (.map es) with
    | some action => rfl
    | none =>
      by_cases hs : s = Movement.tag
      · simp [hs, hmovement (by rw [hs])]
      · simp [hs]

/-- Reading a record by the rules of its version is the same as reading its upgrade to the current
version: the same action or the same fault, for every value. -/
theorem reading_upgraded_record (v : Value) : ofRecord (upgrade v) = ofRecord v := by
  match v with
  | .atom _ | .list _ => rfl
  | .map es =>
    cases hn : version? es with
    | none => rw [upgrade, hn]
    | some n =>
      have htag : ∀ es₁, field? "type" es₁ = field? "type" es →
          fieldD "type" (setField "version" (.int currentVersion)
            (migrate (fieldD "type" es .null) n es₁)) .null = fieldD "type" es .null := by
        intro es₁ h
        rw [(agreeBut_migrated _ _ n es₁).fieldD "type" (by decide), fieldD, fieldD, h]
      rw [upgrade, hn]
      by_cases hmovement : fieldD "type" es .null = .text Movement.tag
      · -- The target is read alike by induction on the size of the record.
        simp only [hmovement, if_true]
        have htype : field? "type" (upgradeTarget es) = field? "type" es := by
          rw [field?_upgradeTarget, if_neg (by decide)]
        rw [ofRecord, ofRecord, ← hmovement, htag _ htype]
        refine ofEntries_congr (fun s hs => ?_) fun _ => ?_
        · obtain rfl : s = Movement.tag := by simpa [hs] using hmovement
          rfl
        · rw [hmovement]
          exact movementOfEntries_migrated hn fun w hw => reading_upgraded_record w
      · simp only [hmovement, if_false]
        rw [ofRecord, ofRecord, htag es rfl]
        refine ofEntries_congr (fun s hs => ?_) fun h => absurd h hmovement
        rw [hs]
        exact simpleOfRecord?_migrated s hn
termination_by sizeOf v
decreasing_by exact sizeOf_field? hw

end Action

end Readers

end RobotProgram
