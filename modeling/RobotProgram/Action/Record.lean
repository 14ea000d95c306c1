import RobotProgram.Action.Storage

/-!
# Action records

An action is stored as a mapping with its type, the version of the format and its fields. Records
of older versions are read too: a field that was renamed is looked up under the name of its version.
-/

namespace RobotProgram.Record

/-- The version that is written: two million, one thousand. -/
def currentVersion : Int := 2001000

/-- The version that renamed the field of the storage class. -/
def storageVersion : Int := 2000000

/-- The last version without a flag for waiting in position. -/
def inPositionVersion : Int := 103000

/-- The record of an action with its fields. -/
def make (action : String) (fields : List (String × Value)) : Value :=
  .record (("type", .text action) :: ("version", .int currentVersion) :: fields)

/-- The version of a record. -/
def version (action : String) (es : List (Atom × Value)) : Outcome Int :=
  match field? "version" es with
  | none => .error (.noVersion action)
  | some v =>
    match v.integer with
    | .ok n => .ok n
    | .error .overflow => .error .overflow
    | .error _ => .error (.badVersion action v)

/-- A field that must be there. -/
def required (action key : String) (es : List (Atom × Value)) : Outcome Value :=
  match field? key es with
  | some v => .ok v
  | none => .error (.missingField action key)

/-- The storage class of a target's record. -/
def storage (version : Int) (es : List (Atom × Value)) : Outcome Storage :=
  let key := if storageVersion ≤ version then "variable_type" else "reference_type"
  match field? key es with
  | some v => Storage.ofValue v
  | none => .ok .var

/-- A part of a record that may be left out or empty. -/
def part? {α : Type} (read : Value → Outcome α) (key : String) (es : List (Atom × Value)) :
    Outcome (Option α) :=
  let v := fieldD key es .null
  if v.truthy then some <$> read v else .ok none

end RobotProgram.Record
