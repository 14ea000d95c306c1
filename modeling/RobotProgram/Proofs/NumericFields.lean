import RobotProgram.Action.Render
import RobotProgram.Proofs.Generation
import RobotProgram.Proofs.Literals

/-!
# The numeric fields of actions

The declaration of an action and the instruction of a wait or an output are words with numbers
between them. `declarationPieces` and `instructionPieces` take them apart, and `declaration_eq` and
`instruction_eq` put them together again, so that a numeric field is a number of a piece.

Joint values and external values are checked to be finite. The duration of a wait, the velocities of
a speed and the frame of a robot target are not, so a valid action may write one that a controller
cannot read. `valid_fields_iff` says that this is the only way to such a field.
-/

namespace RobotProgram

open Number (isDecimal render positionPlaces quaternionPlaces timePlaces)

/-! ### Pieces of program text -/

/-- A piece of program text: words, or numbers with commas between them. -/
inductive Piece where
  | words (s : String)
  | numbers (ns : List String)

namespace Piece

/-- The text of a piece. -/
def text : Piece → String
  | words s => s
  | numbers ns => String.intercalate ", " ns

/-- The numeric fields of a piece. -/
def fields : Piece → List String
  | words _ => []
  | numbers ns => ns

/-- Pieces put together. -/
def assemble (ps : List Piece) : String := String.join (ps.map text)

/-- No pieces make an empty text. -/
@[simp]
theorem assemble_nil : assemble [] = "" := rfl

/-- The text of pieces starts with that of the first one. -/
@[simp]
theorem assemble_cons (p : Piece) (ps : List Piece) : assemble (p :: ps) = p.text ++ assemble ps :=
  String.join_cons

/-- Pieces in a row are put together as their texts. -/
@[simp]
theorem assemble_append (ps qs : List Piece) :
    assemble (ps ++ qs) = assemble ps ++ assemble qs := by
  simp [assemble, String.join_append]

/-- Numbers in brackets. -/
def bracketed (ns : List String) : List Piece := [words "[", numbers ns, words "]"]

/-- Numbers in brackets are put together as a list of them. -/
theorem assemble_bracketed (ns : List String) :
    assemble (bracketed ns) = "[" ++ String.intercalate ", " ns ++ "]" := by
  simp [bracketed, text, String.append_assoc]

/-- A name, or the pieces of a value without one. -/
def reference (name : Value) (value : List Piece) : List Piece :=
  if name.truthy then [words name.toText] else value

/-- A reference is put together as the text that stands for a value. -/
theorem assemble_reference (name : Value) (value : List Piece) :
    assemble (reference name value) = (referenceOf name (assemble value)).toText := by
  unfold reference referenceOf
  split_ifs
  · simp [text]
  · rfl

/-- The pieces of a declaration, none without a name. -/
def declaration (storage : Storage) (type : String) (name : Value) (value : List Piece) :
    List Piece :=
  if name.truthy then
    words (storage.word ++ " " ++ type ++ " " ++ name.toText ++ " := ") :: value ++ [words ";"]
  else []

/-- A declaration is put together as its line. -/
theorem assemble_declaration (storage : Storage) (type : String) (name : Value)
    (value : List Piece) :
    assemble (declaration storage type name value) =
      declarationText storage type name (assemble value) := by
  unfold declaration declarationText
  split_ifs
  · simp [text, String.append_assoc]
  · rfl

/-- The pieces of a declaration whose value may be missing. -/
def declared (storage : Storage) (type : String) (name : Value) (value : Outcome (List Piece)) :
    Outcome (List Piece) :=
  if name.truthy then declaration storage type name <$> value else .ok []

/-- The declaration of a value that may fail is put together as its line, if there is a name. -/
theorem assemble_declared (storage : Storage) (type : String) (name : Value)
    {value : Outcome (List Piece)} {valueText : Outcome String}
    (h : assemble <$> value = valueText) :
    assemble <$> declared storage type name value =
      if name.truthy then declarationText storage type name <$> valueText else .ok "" := by
  subst h
  unfold declared
  split_ifs
  · cases value with
    | error f => rfl
    | ok ps => exact congrArg Except.ok (assemble_declaration storage type name ps)
  · rfl

end Piece

open Piece (assemble bracketed)

/-! ### Declarations -/

/-- The pieces of the values of a robot position. -/
def RobotJoints.valuePieces (p : RobotJoints) : List Piece :=
  bracketed (p.values.toList.map (render positionPlaces))

/-- The value of robot joints is put together from its pieces. -/
theorem RobotJoints.assemble_valuePieces (p : RobotJoints) :
    assemble p.valuePieces = p.valueText :=
  Piece.assemble_bracketed _

/-- The pieces of the slots of an external position. -/
def ExternalJoints.valuePieces (p : ExternalJoints) : List Piece :=
  bracketed (p.slots.toList.map fun s => s.elim undefinedText (render positionPlaces))

/-- The value of external joints is put together from its pieces. -/
theorem ExternalJoints.assemble_valuePieces (p : ExternalJoints) :
    assemble p.valuePieces = p.valueText :=
  Piece.assemble_bracketed _

/-- The pieces of a joint target's value. -/
def JointTarget.valuePieces (t : JointTarget) : Outcome (List Piece) := do
  let robot ← present t.robot
  let external ← present t.external
  return .words "[" :: Piece.reference robot.name robot.valuePieces ++
    .words ", " :: Piece.reference external.name external.valuePieces ++ [.words "]"]

/-- The value of a joint target is put together from its pieces. -/
theorem JointTarget.assemble_valuePieces (t : JointTarget) :
    assemble <$> t.valuePieces = t.valueText := by
  unfold valuePieces valueText
  cases t.robot with
  | none => rfl
  | some robot =>
    cases t.external with
    | none => rfl
    | some external =>
      simp [present, Piece.assemble_reference, RobotJoints.assemble_valuePieces,
        ExternalJoints.assemble_valuePieces, RobotJoints.reference, ExternalJoints.reference,
        Piece.text, String.append_assoc]

/-- The pieces of a robot target's value. -/
def RobotTarget.valuePieces (t : RobotTarget) : Outcome (List Piece) :=
  match t.frame, t.external with
  | some frame, some external =>
    .ok (.words "[" :: bracketed (frame.point.toList.map (render positionPlaces)) ++
      .words ", " :: bracketed (frame.quaternion.toList.map (render quaternionPlaces)) ++
      .words ", " :: bracketed ["0", "0", "0", toString t.config] ++
      .words ", " :: external.valuePieces ++ [.words "]"])
  | _, _ => .error .noSuchPart

/-- The value of a robot target is put together from its pieces. -/
theorem RobotTarget.assemble_valuePieces (t : RobotTarget) :
    assemble <$> t.valuePieces = t.ownValueText := by
  unfold valuePieces ownValueText valueText
  cases hframe : t.frame with
  | none => rfl
  | some frame =>
    cases t.external with
    | none => rfl
    | some external =>
      simp only [present, Outcome.ok_bind, Outcome.ok_map, Except.ok.injEq, pure, Except.pure,
        Piece.assemble_append, Piece.assemble_cons, Piece.assemble_nil, Piece.assemble_bracketed,
        ExternalJoints.assemble_valuePieces, Number.renderList, Piece.text]
      -- Only the words are cut in other places.
      apply String.toList_injective
      simp [String.toList_intercalate]

/-- The pieces of a speed's declaration. -/
def Speed.declarationPieces (s : Speed) : Outcome (List Piece) :=
  if s.predefined.truthy then .ok []
  else do
    let velocities ← s.velocities.mapM Value.number
    return .words ("VAR speeddata " ++ s.name.toText ++ " := ") ::
      bracketed (velocities.map (render positionPlaces)) ++ [.words ";"]

/-- The declaration of a speed is put together from its pieces. -/
theorem Speed.assemble_declarationPieces (s : Speed) :
    assemble <$> s.declarationPieces = s.declaration := by
  unfold declarationPieces declaration valueText
  split_ifs
  · rfl
  · cases s.velocities.mapM Value.number with
    | error f => rfl
    | ok velocities =>
      simp [Piece.assemble_bracketed, Number.renderList, Piece.text, String.append_assoc]

namespace Action

/-- The pieces of the declaration of an action. -/
def declarationPieces : Action → Outcome (List Piece)
  | robotJoints p => .ok (Piece.declaration p.storage "robjoint" p.name p.valuePieces)
  | externalJoints p => .ok (Piece.declaration p.storage "extjoint" p.name p.valuePieces)
  | jointTarget t => Piece.declared t.storage "jointtarget" t.name t.valuePieces
  | robotTarget t => Piece.declared t.storage "robtarget" t.name t.valuePieces
  | speed s => s.declarationPieces
  | wait _ | output _ | movement _ _ => .ok []

/-- The declaration of an action is made of its pieces. -/
theorem declaration_eq (a : Action) : a.declaration = assemble <$> a.declarationPieces := by
  cases a with
  | robotJoints p =>
    rw [declarationPieces, Outcome.ok_map, Piece.assemble_declaration, p.assemble_valuePieces]
    rfl
  | externalJoints p =>
    rw [declarationPieces, Outcome.ok_map, Piece.assemble_declaration, p.assemble_valuePieces]
    rfl
  | jointTarget t => exact (Piece.assemble_declared _ _ _ t.assemble_valuePieces).symm
  | robotTarget t => exact (Piece.assemble_declared _ _ _ t.assemble_valuePieces).symm
  | speed s => exact s.assemble_declarationPieces.symm
  | wait w | output o | movement m target => rfl

/-- The pieces of the instruction of an action that is no movement. -/
def instructionPieces : Action → List Piece
  | wait w =>
    [.words ("WaitTime " ++ if w.inPosition then "\\InPos, " else ""),
      .numbers [render timePlaces w.duration], .words ";"]
  | output o => [.words ("SetDO " ++ o.name.toText ++ ", "), .numbers [o.state], .words ";"]
  | _ => []

/-- The instruction of an action that is no movement is made of its pieces. -/
theorem instruction_eq [Kinematics.Resolver] {a : Action} (h : ∀ m target, a ≠ movement m target)
    (robot : Robot Float) (ambient : Value) :
    (a.instruction robot ambient).outcome = .ok (assemble a.instructionPieces) := by
  cases a with
  | wait w =>
    change Except.ok w.instruction = _
    simp [Wait.instruction, instructionPieces, Piece.text, String.append_assoc]
  | output o =>
    change Except.ok o.instruction = _
    simp [Output.instruction, instructionPieces, Piece.text, String.append_assoc]
  | movement m target => exact absurd rfl (h m target)
  | robotJoints p | externalJoints p | jointTarget t | robotTarget t | speed s => rfl

end Action

/-! ### Fields -/

/-- A number that a controller reads: a decimal literal, or what stands for an undefined value. -/
def isField (s : String) : Bool := isDecimal s || s == undefinedText

/-- A controller reads what stands for an undefined value. -/
theorem isField_undefined : isField undefinedText = true := by decide

/-- A number is written so that a controller reads it exactly if it is finite. -/
theorem isField_render (places : Nat) (x : Float) :
    isField (render places x) = true ↔ x.isFinite = true := by
  constructor
  · intro hfield
    by_contra h
    have hmem := Number.render_mem_of_not_isFinite h places
    generalize render places x = text at hmem hfield
    revert text
    decide
  · intro h
    rw [isField, Number.isDecimal_render h, Bool.true_or]

namespace Piece

/-- Every numeric field of some pieces is one that a controller reads. -/
def Readable (ps : List Piece) : Prop := ∀ n ∈ ps.flatMap fields, isField n = true

/-- No pieces are readable. -/
@[simp]
theorem readable_nil : Readable [] := by simp [Readable]

/-- Pieces in a row are readable if those of each part are. -/
@[simp]
theorem readable_append (ps qs : List Piece) :
    Readable (ps ++ qs) ↔ Readable ps ∧ Readable qs := by
  simp [Readable, or_imp, forall_and]

/-- Words are always readable. -/
@[simp]
theorem readable_words (s : String) (ps : List Piece) : Readable (words s :: ps) ↔ Readable ps := by
  simp [Readable, fields]

/-- Numbers are readable if a controller reads each of them. -/
@[simp]
theorem readable_numbers (ns : List String) (ps : List Piece) :
    Readable (numbers ns :: ps) ↔ (∀ n ∈ ns, isField n = true) ∧ Readable ps := by
  simp [Readable, fields, or_imp, forall_and]

/-- Numbers in brackets are readable if a controller reads each of them. -/
@[simp]
theorem readable_bracketed (ns : List String) :
    Readable (bracketed ns) ↔ ∀ n ∈ ns, isField n = true := by
  simp [bracketed]

/-- A reference is readable if the value is that it may stand for. -/
theorem Readable.reference {value : List Piece} (h : Readable value) (name : Value) :
    Readable (reference name value) := by
  unfold Piece.reference
  split_ifs
  · simp
  · exact h

/-- A declaration is readable if the value is, or if it has no name and is not made. -/
theorem readable_declaration {storage : Storage} {type : String} {name : Value}
    {value : List Piece} :
    Readable (declaration storage type name value) ↔ name.truthy = true → Readable value := by
  unfold declaration
  split_ifs with hname <;> simp [hname]

/-- A declaration that can be made is that of a value, or there is no name. -/
theorem readable_declared {storage : Storage} {type : String} {name : Value}
    {value : Outcome (List Piece)} {ps : List Piece}
    (h : declared storage type name value = .ok ps) :
    (name.truthy = true ∧ ∃ vs, value = .ok vs ∧ (Readable ps ↔ Readable vs)) ∨
      name.truthy = false ∧ Readable ps := by
  unfold declared at h
  split_ifs at h with hname
  · obtain ⟨vs, hvs, rfl⟩ := Outcome.map_eq_ok.mp h
    exact .inl ⟨hname, vs, hvs, by simp [readable_declaration, hname]⟩
  · obtain rfl := Except.ok.inj h
    exact .inr ⟨by simpa using hname, readable_nil⟩

end Piece

/-! ### Valid actions -/

/-- The values of a valid robot position are finite. -/
theorem RobotJoints.readable_valuePieces {p : RobotJoints} (h : p.isValid = true) :
    Piece.Readable p.valuePieces := by
  have hfinite : ∀ x ∈ p.values.toList, x.isFinite = true := by
    intro x hx
    exact Vector.all_eq_true_iff_forall_mem.mp h x (Vector.mem_toList_iff.mp hx)
  unfold valuePieces
  rw [Piece.readable_bracketed, List.forall_mem_map]
  exact fun x hx => (isField_render _ x).mpr (hfinite x hx)

/-- The slots of a valid external position are finite or undefined. -/
theorem ExternalJoints.readable_valuePieces {p : ExternalJoints} (h : p.isValid = true) :
    Piece.Readable p.valuePieces := by
  have hfinite : ∀ s ∈ p.slots.toList, s.all Float.isFinite = true := by
    intro s hs
    exact Vector.all_eq_true_iff_forall_mem.mp h s (Vector.mem_toList_iff.mp hs)
  unfold valuePieces
  rw [Piece.readable_bracketed, List.forall_mem_map]
  intro s hs
  cases s with
  | none => exact isField_undefined
  | some x => exact (isField_render _ x).mpr (hfinite _ hs)

/-- Both parts of a valid joint target are valid, so its value is readable. -/
theorem JointTarget.readable_valuePieces {t : JointTarget} (h : t.isValid = true)
    {value : List Piece} (hvalue : t.valuePieces = .ok value) : Piece.Readable value := by
  unfold isValid at h
  split at h
  · rename_i robot external hrobot hexternal
    rw [valuePieces, hrobot, hexternal] at hvalue
    obtain rfl := Except.ok.inj hvalue
    rw [Bool.and_eq_true] at h
    simp [(RobotJoints.readable_valuePieces h.1).reference,
      (ExternalJoints.readable_valuePieces h.2).reference]
  · cases h

/-- The numbers of a robot target that are written without a look at whether they are finite. -/
def RobotTarget.unguarded (t : RobotTarget) : List Float :=
  if t.name.truthy then t.frame.elim [] fun f => f.point.toList ++ f.quaternion.toList else []

/-- The value of a valid robot target is readable exactly if its frame is finite. -/
theorem RobotTarget.readable_valuePieces {t : RobotTarget} (h : t.isValid = .ok true)
    {value : List Piece} (hvalue : t.valuePieces = .ok value) :
    Piece.Readable value ↔ ∀ x ∈ t.frame.elim [] fun f => f.point.toList ++ f.quaternion.toList,
      x.isFinite = true := by
  unfold valuePieces at hvalue
  split at hvalue
  · rename_i frame external hframe hexternal
    obtain rfl := Except.ok.inj hvalue
    have hvalid : external.isValid = true := by
      rw [isValid, hframe, hexternal] at h
      exact Except.ok.inj h
    have hconfig : isField (toString t.config) = true := by
      rw [isField, Number.isDecimal_toString_int, Bool.true_or]
    have hzero : isField "0" = true := by decide
    have hexternal := ExternalJoints.readable_valuePieces hvalid
    simp only [hframe, Piece.readable_append, Piece.readable_words, Piece.readable_bracketed,
      Piece.readable_nil, List.forall_mem_map, isField_render, List.forall_mem_cons, hzero, hconfig,
      hexternal, List.not_mem_nil, false_implies, implies_true, and_true, Option.elim_some,
      List.forall_mem_append]
  · cases hvalue

/-- The numbers of a speed that are written without a look at whether they are finite. -/
def Speed.unguarded (s : Speed) : List Float :=
  if s.predefined.truthy then [] else (s.velocities.mapM Value.number).items

/-- The declaration of a speed is readable exactly if its velocities are finite. -/
theorem Speed.readable_declarationPieces {s : Speed} {ps : List Piece}
    (hps : s.declarationPieces = .ok ps) :
    Piece.Readable ps ↔ ∀ x ∈ s.unguarded, x.isFinite = true := by
  unfold declarationPieces at hps
  unfold unguarded
  split_ifs at hps ⊢
  · obtain rfl := Except.ok.inj hps
    simp
  · obtain ⟨velocities, hvelocities, h⟩ := Outcome.bind_eq_ok.mp hps
    obtain rfl := Outcome.pure_eq_ok.mp h
    rw [hvelocities]
    simp [isField_render, Outcome.items]

namespace Action

/-- The numbers of a declaration that are written without a look at whether they are finite. -/
def unguardedInDeclaration : Action → List Float
  | robotTarget t => t.unguarded
  | speed s => s.unguarded
  | _ => []

/-- The numbers of an instruction that are written without a look at whether they are finite. -/
def unguardedInInstruction : Action → List Float
  | wait w => [w.duration]
  | _ => []

/-- What a valid action declares is readable exactly if its unguarded numbers are finite. -/
theorem readable_declarationPieces {a : Action} (h : a.isValid = .ok true) {ps : List Piece}
    (hps : a.declarationPieces = .ok ps) :
    Piece.Readable ps ↔ ∀ x ∈ a.unguardedInDeclaration, x.isFinite = true := by
  cases a with
  | robotJoints p =>
    obtain rfl := Except.ok.inj hps
    have hvalue := p.readable_valuePieces (Except.ok.inj h)
    exact iff_of_true (Piece.readable_declaration.mpr fun _ => hvalue) nofun
  | externalJoints p =>
    obtain rfl := Except.ok.inj hps
    have hvalue := p.readable_valuePieces (Except.ok.inj h)
    exact iff_of_true (Piece.readable_declaration.mpr fun _ => hvalue) nofun
  | jointTarget t =>
    refine iff_of_true ?_ nofun
    obtain ⟨-, value, hvalue, hiff⟩ | ⟨-, hnone⟩ := Piece.readable_declared hps
    · exact hiff.mpr (JointTarget.readable_valuePieces (Except.ok.inj h) hvalue)
    · exact hnone
  | robotTarget t =>
    change Piece.Readable ps ↔ ∀ x ∈ t.unguarded, x.isFinite = true
    unfold RobotTarget.unguarded
    obtain ⟨hname, value, hvalue, hiff⟩ | ⟨hname, hnone⟩ := Piece.readable_declared hps
    · rw [hiff, if_pos hname]
      exact RobotTarget.readable_valuePieces h hvalue
    · exact iff_of_true hnone (by simp [hname])
  | speed s => exact Speed.readable_declarationPieces hps
  | wait w | output o | movement m target =>
    obtain rfl := Except.ok.inj hps
    exact iff_of_true Piece.readable_nil nofun

/-- The instruction of a wait is readable exactly if its duration is finite. -/
theorem readable_instructionPieces (a : Action) :
    Piece.Readable a.instructionPieces ↔ ∀ x ∈ a.unguardedInInstruction, x.isFinite = true := by
  cases a with
  | wait w => simp [instructionPieces, unguardedInInstruction, isField_render]
  | output o =>
    have hstate : isField o.state = true := by
      unfold Output.state
      split_ifs <;> decide
    simp [instructionPieces, unguardedInInstruction, hstate]
  | robotJoints p | externalJoints p | jointTarget t | robotTarget t | speed s
  | movement m target => exact iff_of_true Piece.readable_nil nofun

/-- The numeric fields of a valid action are numbers that a controller reads exactly if the numbers
that validity does not look at are finite: the velocities of a speed and the frame of a robot target
in its declaration, the duration of a wait in its instruction. -/
theorem valid_fields_iff [Kinematics.Resolver] {a : Action} (h : a.isValid = .ok true)
    (robot : Robot Float) (ambient : Value) :
    a.declaration = assemble <$> a.declarationPieces ∧
    (∀ ps, a.declarationPieces = .ok ps →
      (Piece.Readable ps ↔ ∀ x ∈ a.unguardedInDeclaration, x.isFinite = true)) ∧
    ((∀ m target, a ≠ movement m target) →
      (a.instruction robot ambient).outcome = .ok (assemble a.instructionPieces)) ∧
    (Piece.Readable a.instructionPieces ↔
      ∀ x ∈ a.unguardedInInstruction, x.isFinite = true) :=
  ⟨a.declaration_eq, fun _ hps => readable_declarationPieces h hps,
    fun ha => instruction_eq ha robot ambient, a.readable_instructionPieces⟩

/-- A wait without an end is valid, but a controller cannot read its duration. -/
theorem valid_fields_iff_endless :
    (wait ⟨1.0 / 0.0, false⟩).isValid = .ok true ∧
      ¬Piece.Readable (wait ⟨1.0 / 0.0, false⟩).instructionPieces ∧
      Piece.Readable (wait ⟨1.0, false⟩).instructionPieces := by
  have hendless : (wait ⟨1.0 / 0.0, false⟩).isValid = .ok true :=
    passes_eq_true.mp (by decide +kernel)
  have hshort : (wait ⟨1.0, false⟩).isValid = .ok true := passes_eq_true.mp (by decide +kernel)
  refine ⟨hendless, ?_, ?_⟩
  · rw [(valid_fields_iff hendless Program.Generator.benchRobot .null).2.2.2]
    simp only [unguardedInInstruction, List.mem_singleton, forall_eq]
    decide +kernel
  · rw [(valid_fields_iff hshort Program.Generator.benchRobot .null).2.2.2]
    simp only [unguardedInInstruction, List.mem_singleton, forall_eq]
    decide +kernel

end Action

end RobotProgram
