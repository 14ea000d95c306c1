import RobotProgram.Fault
import RobotProgram.Number.Reader

/-!
# Reading plain data

What a value means where a number, a whole number, a list or a record is needed, and the order of
values as numbers.
-/

namespace RobotProgram.Value

/-- The number that a value stands for: a number, a truth value or a text that reads as a number. -/
def number : Value → Outcome Float
  | .float x => .ok x
  | .int n =>
    match Number.ofInt? n with
    | some x => .ok x
    | none => .error .overflow
  | .bool b => .ok (if b then 1.0 else 0.0)
  | .text s =>
    match Number.read? s with
    | some x => .ok x
    | none => .error (.notNumber s)
  | _ => .error .wrongType

/-- The whole number that a text stands for. -/
def integerOfText (s : String) : Outcome Int :=
  match Number.readInt? s with
  | some n =>
    let count := Number.digitCount s
    if longestNumber < count then .error (.longDigits count) else .ok n
  | none => .error (.notInteger s)

/-- The whole number that a value stands for; a fraction is dropped. -/
def integer : Value → Outcome Int
  | .int n => .ok n
  | .bool b => .ok (if b then 1 else 0)
  | .float x =>
    match Number.exact x with
    | .nan => .error .nanInteger
    | .infinite _ => .error .overflow
    | .finite d => .ok (Number.truncate d)
  | .text s => integerOfText s
  | _ => .error .wrongType

/-- The text of a value, if its numbers are short enough to be written. -/
def written (v : Value) : Outcome String :=
  if v.isShort then .ok v.toText else .error .longNumber

/-- The parts of a value in order: items, the characters of a text, the keys of a mapping. -/
def parts : Value → Outcome (List Value)
  | .list xs => .ok xs
  | .text s => .ok (s.toList.map fun c => .text (String.singleton c))
  | .map es => .ok (es.map fun e => .atom e.1)
  | _ => .error .wrongType

/-- The numbers that the parts of a value stand for. -/
def numbers (v : Value) : Outcome (List Float) := do
  (← v.parts).mapM number

/-- The entries of a mapping; nothing else has fields. -/
def entries : Value → Outcome (List (Atom × Value))
  | .map es => .ok es
  | _ => .error .noSuchPart

/-- The pair that an item of a list stands for, where the list is read as a mapping. -/
def pairOf (index : Nat) (item : Value) : Outcome (Atom × Value) := do
  match ← item.parts with
  | [.atom key, v] => .ok (key, v)
  | [_, _] => .error .wrongType
  | parts => .error (.notPair index parts.length)

/-- The entries that a value adds to a mapping: those of a mapping, or the pairs of a list. -/
def extend (es : List (Atom × Value)) (v : Value) : Outcome (List (Atom × Value)) := do
  let added ← match v with
    | .map added => pure added
    | v => (← v.parts).zipIdx.mapM fun (item, index) => pairOf index item
  return added.foldl (fun es (k, v) => insertEntry k v es) es

/-- A value read as a mapping. -/
def mapping (v : Value) : Outcome (List (Atom × Value)) := extend [] v

/-- Whether a text occurs in a text. -/
def occursIn (part : List Char) : List Char → Bool
  | [] => part.isEmpty
  | c :: cs => part.isPrefixOf (c :: cs) || occursIn part cs

/-- Whether a value holds a name: as a key, as an item, or as a part of a text. -/
def mentions (name : String) : Value → Outcome Bool
  | .map es => .ok (field? name es).isSome
  | .list xs => .ok (xs.any fun x => x.same (.text name))
  | .text s => .ok (occursIn name.toList s.toList)
  | _ => .error .wrongType

/-- A number as it takes part in arithmetic, which reads no text. -/
inductive Quantity where
  | whole (n : Int)
  | real (x : Float)

/-- The quantity of a value. -/
def quantity : Value → Outcome Quantity
  | .int n => .ok (.whole n)
  | .bool b => .ok (.whole (if b then 1 else 0))
  | .float x => .ok (.real x)
  | _ => .error .wrongType

/-- The floating-point number of a value in arithmetic. -/
def scalar (v : Value) : Outcome Float := do
  match ← v.quantity with
  | .real x => .ok x
  | .whole n =>
    match Number.ofInt? n with
    | some x => .ok x
    | none => .error .overflow

/-- The exact order of two quantities, if both are numbers. -/
def Quantity.order : Quantity → Quantity → Option Ordering
  | .whole m, .whole n => some (compare m n)
  | .real x, .whole n => Number.compareInt x n
  | .whole m, .real y => (Number.compareInt y m).map Ordering.swap
  | .real x, .real y =>
    if x < y then some .lt else if y < x then some .gt else if x == y then some .eq else none

/-- The order of two values; texts are ordered among themselves, and so are lists not at all. -/
def order (a b : Value) : Outcome (Option Ordering) :=
  match a, b with
  | .text s, .text t => .ok (some (compare s t))
  | a, b => do return (← a.quantity).order (← b.quantity)

/-- Whether `a` is below `b`. -/
def less (a b : Value) : Outcome Bool := do
  return (← a.order b) == some .lt

/-- Whether `a` is at most `b`. -/
def atMost (a b : Value) : Outcome Bool := do
  let o ← a.order b
  return o == some .lt || o == some .eq

end RobotProgram.Value
