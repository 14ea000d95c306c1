import RobotProgram.Text.Upper
import RobotProgram.Value.Convert

/-!
# Storage classes

A declared variable is a variable, a persistent or a constant.
-/

namespace RobotProgram

/-- How a declared variable is stored. -/
inductive Storage where
  | var
  | pers
  | const
deriving DecidableEq, Repr

namespace Storage

/-- The storage classes in order. -/
def all : List Storage := [var, pers, const]

/-- The word of a storage class. -/
def word : Storage → String
  | var => "VAR"
  | pers => "PERS"
  | const => "CONST"

/-- The storage class with a word. -/
def ofWord? (s : String) : Option Storage := all.find? fun c => c.word == s

end Storage

/-- The item of a list at an index, which counts from the end when it is negative and is a word of
64 bits with a sign. -/
def itemAt {α : Type} (xs : List α) (i : Int) : Outcome α :=
  if i < -Nat.pow 2 63 || Nat.pow 2 63 ≤ i then .error .hugeIndex
  else
    match xs[(if i < 0 then i + xs.length else i).toNat]? with
    | some x => if 0 ≤ i + xs.length then .ok x else .error .noSuchIndex
    | none => .error .noSuchIndex

/-- The storage class of a value: a whole number counts through the classes, anything else is
read as a word in either case. -/
def Storage.ofValue : Value → Outcome Storage
  | .int n => itemAt all n
  | .bool b => itemAt all (if b then 1 else 0)
  | v => do
    let word := Text.upper (← v.written)
    match ofWord? word with
    | some c => .ok c
    | none => .error (.unknownStorage word)

end RobotProgram
