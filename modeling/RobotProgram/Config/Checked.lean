import RobotProgram.Value.Convert

/-!
# Checked settings

Settings are checked as a whole: a check either gives a value or lists every broken rule, each with
the way to the field that breaks it. Checks of several fields are combined applicatively, so no
broken rule hides another.
-/

namespace RobotProgram

/-- A checked value, or the rules that are broken. -/
inductive Checked (α : Type) where
  | ok (a : α)
  | bad (issues : List Issue)

namespace Checked

variable {α β : Type}

/-- Applies a checked function; the issues of both sides are kept, in their order. -/
def apply (f : Checked (α → β)) (x : Checked α) : Checked β :=
  match f, x with
  | ok f, ok a => ok (f a)
  | ok _, bad issues => bad issues
  | bad issues, ok _ => bad issues
  | bad issues, bad more => bad (issues ++ more)

instance : Applicative Checked where
  pure := ok
  seq f x := f.apply (x ())

/-- One broken rule at the place itself. -/
def fail (rule : Rule) : Checked α := bad [⟨[], rule⟩]

/-- Puts a step before the way to every issue. -/
def under (step : Step) : Checked α → Checked α
  | ok a => ok a
  | bad issues => bad (issues.map fun i => { i with path := step :: i.path })

/-- Continues with a check that needs the value. -/
def andThen (x : Checked α) (f : α → Checked β) : Checked β :=
  match x with
  | ok a => f a
  | bad issues => bad issues

/-- The value, or a fault with the issues. -/
def outcome : Checked α → Outcome α
  | ok a => .ok a
  | bad issues => .error (.invalidSettings issues)

end Checked

/-- A check of a value. -/
abbrev Check (α : Type) := Value → Checked α

namespace Check

variable {α : Type}

/-- A text, which holds no half of a pair. -/
def text : Check String
  | .text s => if Text.isWhole s then pure s else .fail .wholeCharacters
  | _ => .fail .text

/-- A text, or nothing. -/
def text? : Check (Option String)
  | .null => pure none
  | v => some <$> text v

/-- Whether every digit of a text is one of the ten of ASCII. -/
def plainDigits (s : String) : Bool :=
  s.toList.all fun c => !Text.isDigit c || c.isDigit

/-- A number; texts that read as numbers count. -/
def number : Check Float
  | .text s =>
    if !Text.isWhole s then .fail .wholeCharacters
    else
      match Number.read? s with
      | some x => if plainDigits s then pure x else .fail .numberText
      | none => .fail .numberText
  | v =>
    match v.number with
    | .ok x => pure x
    | .error _ => .fail .number

/-- A text without a fraction of zeros. -/
def dropZeroFraction (s : String) : String :=
  let cs := Text.trimChars s.toList
  match cs.dropWhile (· != '.') with
  | '.' :: zeros =>
    if zeros.all (· == '0') then String.ofList (cs.takeWhile (· != '.')) else s
  | _ => s

/-- A whole number; numbers without a fraction and texts that read as whole numbers count. -/
def whole : Check Int
  | .int n => pure n
  | .bool b => pure (if b then 1 else 0)
  | .float x =>
    match Number.exact x with
    | .finite d =>
      let n := Number.truncate d
      if Number.compareInt x n == some .eq then pure n else .fail .wholePart
    | _ => .fail .finite
  | .text s =>
    if !Text.isWhole s then .fail .wholeCharacters
    else if longestNumber < (Text.trim s).utf8ByteSize then .fail .wholeLength
    else
      match Number.readInt? (dropZeroFraction s) with
      | some n => if plainDigits s then pure n else .fail .wholeText
      | none => .fail .wholeText
  | _ => .fail .whole

/-- A whole number between two bounds, which are allowed. -/
def wholeBetween (low high : Int) : Check Int := fun v =>
  (whole v).andThen fun n =>
    if n < low then .fail .atLeast else if high < n then .fail .atMost else pure n

/-- The checked items of a list, numbered from `i`. -/
def itemsFrom (check : Check α) (i : Nat) : List Value → Checked (List α)
  | [] => pure []
  | v :: vs => List.cons <$> (check v).under (.index i) <*> itemsFrom check (i + 1) vs

/-- A list. -/
def list (check : Check α) : Check (List α)
  | .list vs => itemsFrom check 0 vs
  | _ => .fail .list

/-- Three numbers. A list that is too long is refused before its items are. -/
def triple : Check (Float × Float × Float)
  | .list vs =>
    if 3 < vs.length then .fail .tooLong
    else (itemsFrom number 0 vs).andThen fun
      | [x, y, z] => pure (x, y, z)
      | _ => .fail .tooShort
  | _ => .fail .list

/-- Two numbers. -/
def pair : Check (Float × Float) := fun v =>
  (list number v).andThen fun
    | [x, y] => pure (x, y)
    | _ => .fail .value

/-- A mapping. -/
def fields (check : List (Atom × Value) → Checked α) : Check α
  | .map es => check es
  | _ => .fail .mapping

/-- A field that must be there. -/
def required (key : String) (check : Check α) (es : List (Atom × Value)) : Checked α :=
  match field? key es with
  | some v => (check v).under (.key key)
  | none => (Checked.fail .missing).under (.key key)

/-- A field that may be left out. -/
def optional (key : String) (default : α) (check : Check α) (es : List (Atom × Value)) :
    Checked α :=
  match field? key es with
  | some v => (check v).under (.key key)
  | none => pure default

end Check

end RobotProgram
